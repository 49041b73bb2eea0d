import RouterConsole.Router.Edit
import RouterConsole.Shell.Pattern

/-!
# The family of route commands

Twelve commands add, switch off or delete a static route. They differ in what they do, in how they
name the target and in whether they state a distance.
-/
namespace RouterConsole.Shell

inductive RouteAction where
  | set
  | disable
  | delete
  deriving DecidableEq, Repr

/-- How a route command names the target. -/
inductive RouteVia where
  | nextHop
  | interface
  deriving DecidableEq, Repr

inductive RouteCommandFault where
  | action (name : String)
  | via (name : String)
  deriving DecidableEq, Repr

def RouteCommandFault.message : RouteCommandFault → String
  | .action n => "Unknown route action: " ++ n
  | .via n => "Unknown route target: " ++ n

namespace RouteAction

def word : RouteAction → String
  | set => "set"
  | disable => "disable"
  | delete => "delete"

def ofWord (w : String) : Except RouteCommandFault RouteAction :=
  ([set, disable, delete].find? (·.word == w)).elim (.error (.action w)) .ok

/-- The first word of the command: a route is switched off by setting it so. -/
def verb : RouteAction → String
  | delete => "delete"
  | set | disable => "set"

def describing : RouteAction → String
  | set => "Add"
  | disable => "Disable"
  | delete => "Delete"

end RouteAction

namespace RouteVia

def word : RouteVia → String
  | nextHop => "next-hop"
  | interface => "interface"

def ofWord (w : String) : Except RouteCommandFault RouteVia :=
  ([nextHop, interface].find? (·.word == w)).elim (.error (.via w)) .ok

def argument : RouteVia → String
  | nextHop => "next_hop"
  | interface => "interface"

def slot (v : RouteVia) : PatternWord := .placeholder ("<" ++ v.word ++ ">") v.argument

end RouteVia

structure RouteCommand where
  action : RouteAction
  via : RouteVia
  withDistance : Bool := false
  deriving DecidableEq, Repr

namespace RouteCommand

/-- The member that these words name. -/
def ofWords (action via : String) (withDistance : Bool) :
    Except RouteCommandFault RouteCommand := do
  let a ← RouteAction.ofWord action
  return ⟨a, ← RouteVia.ofWord via, withDistance⟩

def patternWords (c : RouteCommand) : List PatternWord :=
  [.keyword c.action.verb, .keyword "protocols", .keyword "static", .keyword "route",
    .slot "destination", .keyword c.via.word, c.via.slot] ++
    (if c.withDistance then [.keyword "distance", .slot "distance"] else []) ++
    if c.action = .disable then [.keyword "disable"] else []

def description (c : RouteCommand) : String :=
  c.action.describing ++ " static route via " ++ c.via.word ++ " with " ++
    if c.withDistance then "custom distance" else "default distance"

/-- The configuration path that the command is about, with its arguments as they were typed. -/
def path (c : RouteCommand) (args : Arguments) : String :=
  Text.unwords (["protocols", "static", "route", args.value "destination", c.via.word,
    args.value c.via.argument] ++
    (if c.withDistance then ["distance", args.value "distance"] else []) ++
    if c.action = .disable then ["disable"] else [])

/-- A value that an operator typed, or the refusal of it. -/
def typed {α : Type} (read : String → Except ValueFault α) (value : String) :
    Except RouterError α :=
  (read value).mapError (.ofValue value)

def route (c : RouteCommand) (args : Arguments) : Except RouterError StaticRoute := do
  let destination ← typed Value.network (args.value "destination")
  let distance ←
    if c.withDistance then typed Value.distance (args.value "distance") else pure .default
  let target ← match c.via with
    | .nextHop => RouteTarget.nextHop <$> typed Value.gateway (args.value "next_hop")
    | .interface => pure (.interface (args.value "interface"))
  return { destination := destination, target := target, distance := distance }

def edit (c : RouteCommand) (r : StaticRoute) : Edit :=
  match c.action with
  | .set => .addRoute r
  | .disable => .disableRoute r
  | .delete => .removeRoute r

/-- All members, longer patterns before shorter ones of the same action. -/
def all : List RouteCommand :=
  [RouteAction.delete, .disable, .set].flatMap fun action =>
    [true, false].flatMap fun withDistance =>
      [RouteVia.nextHop, .interface].map fun via => ⟨action, via, withDistance⟩

end RouteCommand

end RouterConsole.Shell
