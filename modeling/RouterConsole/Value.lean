import RouterConsole.Route.Static
import RouterConsole.Text.Digit

/-!
# Values typed by the operator

The four kinds of value that a command or a configuration line may carry. An interface address and
a network must state their mask; a gateway must not.
-/
namespace RouterConsole

open IPv4 (Address AddressFault InterfaceAddress Network)

inductive ValueFault where
  | addressWithoutMask
  | networkWithoutMask
  | badAddress (fault : AddressFault)
  | notInteger
  | distanceOutOfRange
  deriving DecidableEq, Repr

def ValueFault.message : ValueFault → String
  | .addressWithoutMask => "address must be in CIDR notation (x.x.x.x/prefix)"
  | .networkWithoutMask => "network must be in CIDR notation (x.x.x.x/prefix)"
  | .badAddress f => f.message
  | .notInteger => "distance must be an integer"
  | .distanceOutOfRange => "distance must be between 1 and 255"

namespace Value

def hasMask (s : String) : Bool := s.toList.contains '/'

def interfaceAddress (s : String) : Except ValueFault InterfaceAddress :=
  if hasMask s then (InterfaceAddress.parse s).mapError .badAddress
  else .error .addressWithoutMask

def network (s : String) : Except ValueFault Network :=
  if hasMask s then (Network.parse s).mapError .badAddress
  else .error .networkWithoutMask

def gateway (s : String) : Except ValueFault Address := (Address.parse s).mapError .badAddress

def distance (s : String) : Except ValueFault Distance :=
  match Text.integer? s with
  | none => .error .notInteger
  | some n => (Distance.ofInt? n).elim (.error .distanceOutOfRange) .ok

end Value

end RouterConsole
