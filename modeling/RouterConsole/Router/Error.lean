import RouterConsole.Value

/-!
# What the router refuses

Each reason for which the router refuses an operation is a cause of its own; the wording of all of
them is in one function.
-/
namespace RouterConsole

open IPv4 (InterfaceAddress)

/-- Why an address is unusable for an interface: it is the first or the last of its network. -/
inductive AddressProblem where
  | network
  | broadcast
  deriving DecidableEq, Repr

def AddressProblem.word : AddressProblem → String
  | .network => "network"
  | .broadcast => "broadcast"

inductive RouterError where
  /-- The command is for the other mode. -/
  | wrongMode (command : String)
  | clearOutsideConfiguration
  | routeExists
  | addressExists
  | alreadyDisabled (interface : String)
  | noRouteToDelete
  | noSuchRoute
  | notDisabled (interface : String)
  | noAddressToDelete
  | noSuchInterface (name : String)
  | unusableAddress (address : InterfaceAddress) (problem : AddressProblem)
      (suggestion : Option InterfaceAddress)
  | badValue (value reason : String)
  | nothingToCommit
  | uncommittedChanges
  | saveUnsupported
  deriving DecidableEq

namespace RouterError

def message : RouterError → String
  | wrongMode c => "Invalid command: " ++ c
  | clearOutsideConfiguration => "Cannot clear configuration in operational mode"
  | routeExists => "Route already exists"
  | addressExists => "Configuration already exists"
  | alreadyDisabled i => "Interface " ++ i ++ " is already disabled"
  | noRouteToDelete => "Nothing to delete"
  | noSuchRoute => "Route not found"
  | notDisabled i => "Interface " ++ i ++ " is not disabled"
  | noAddressToDelete => "No value to delete"
  | noSuchInterface n => "WARN: interface " ++ n ++ " does not exist, changes will not be committed"
  | unusableAddress a p _ =>
    "Cannot assign " ++ p.word ++ " address " ++ a.text ++ " to the interface. " ++
      "Use a host address instead"
  | badValue v r => v ++ " is not a valid value: " ++ r
  | nothingToCommit => "No configuration changes to commit"
  | uncommittedChanges =>
    "Cannot exit: configuration modified.\n" ++
      "Use 'exit discard' to discard the changes and exit.\n[edit]"
  | saveUnsupported => "Saving configuration is not supported."

/-- Whether what was asked for is already there; then nothing is lost by the refusal. -/
def isDuplicate : RouterError → Bool
  | routeExists | addressExists | alreadyDisabled _ => true
  | _ => false

def ofValue (value : String) (fault : ValueFault) : RouterError := .badValue value fault.message

end RouterError

end RouterConsole
