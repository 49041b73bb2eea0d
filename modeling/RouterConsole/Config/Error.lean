import RouterConsole.Config.Token
import RouterConsole.Router.Error
import RouterConsole.Storage.Error

/-!
# What is wrong with a configuration

The causes for which a configuration text is refused, and the token at which each was noticed.
-/
namespace RouterConsole.Config

/-- Why a configuration is refused. -/
inductive Fault where
  | emptyPath
  | unexpectedEnd (line : Nat)
  | expectedSet
  | expectedWord (keyword : String)
  | unknownPath
  | unknownInterface (name : String)
  | unknownInterfaceOption
  | badAddress (value : String) (fault : ValueFault)
  | badDestination (value : String) (fault : ValueFault)
  | badGateway (value : String) (fault : ValueFault)
  | badDistance (value : String) (fault : ValueFault)
  | expectedTarget
  | severalTargets
  | unknownRouteOption
  | unexpectedClose
  | namelessBlock
  | blockInRoute
  | unexpectedBrace
  | missingClose
  | refused (cause : RouterError)
  | unreadable (fault : Storage.Fault)
  /-- A reason that comes from elsewhere, in its own words. -/
  | stated (reason : String)
  deriving DecidableEq

/-- The refusal by the router that a fault comes from, if it comes from one. -/
def Fault.cause? : Fault → Option RouterError
  | .badAddress v f | .badDestination v f | .badGateway v f | .badDistance v f =>
    some (.ofValue v f)
  | .refused e => some e
  | _ => none

def Fault.reason : Fault → String
  | .emptyPath => "Configuration path is empty"
  | .unexpectedEnd line => "Unexpected end of configuration at line " ++ toString line
  | .expectedSet => "Expected 'set' command"
  | .expectedWord k => "Expected '" ++ k ++ "'"
  | .unknownPath => "Unrecognized configuration path"
  | .unknownInterface n => "Interface " ++ n ++ " does not exist on this router"
  | .unknownInterfaceOption => "Unrecognized interface configuration option"
  | .badAddress v f => "Invalid interface address: " ++ (RouterError.ofValue v f).message
  | .badDestination v f => "Invalid route destination: " ++ (RouterError.ofValue v f).message
  | .badGateway v f => "Invalid next-hop address: " ++ (RouterError.ofValue v f).message
  | .badDistance _ _ => "Invalid distance value"
  | .expectedTarget => "Expected 'next-hop' or 'interface'"
  | .severalTargets => "Route has more than one target"
  | .unknownRouteOption => "Unrecognized route option"
  | .unexpectedClose => "Unexpected '\x7d'"
  | .namelessBlock => "Expected block name before '\x7b'"
  | .blockInRoute => "Unexpected block inside route"
  | .unexpectedBrace => "Unexpected brace"
  | .missingClose => "Unexpected end of configuration: missing '\x7d'"
  | .refused e => "Invalid configuration: " ++ e.message
  | .unreadable f => "Cannot read configuration file: " ++ f.message
  | .stated r => r

/-- A refused configuration: the cause and where it was noticed. -/
structure Error where
  fault : Fault
  token : Option Token
  deriving DecidableEq

def Fault.at (f : Fault) (t : Token) : Error := ⟨f, some t⟩

/-- The reason, with the token on a line of its own. -/
def Error.message (e : Error) : String :=
  match e.token with
  | none => e.fault.reason
  | some t => e.fault.reason ++ "\nInvalid token: " ++ t.text

end RouterConsole.Config
