import RouterConsole.IPv4.Network
import RouterConsole.Interface.Mac
import RouterConsole.Interface.Status

/-!
# Interfaces

A router's own interfaces, and the opaque interfaces of other devices that may be at the far end of
a cable. The name is the identity of an interface: it never changes, and routes refer to it.
-/
namespace RouterConsole

open IPv4 (InterfaceAddress Network)

/-- The greatest packet that an interface carries unless its creator says otherwise: loopbacks,
known by their names, carry more. -/
def defaultMtu (name : String) : Nat :=
  if "lo".toList.isPrefixOf name.toList then 65536 else 1500

structure Interface where
  name : String
  address : Option InterfaceAddress := none
  mac : MacAddress
  status : InterfaceStatus := {}
  mtu : Nat
  vrf : String := "default"
  description : Option String := none
  deriving DecidableEq

namespace Interface

/-- A new interface: unaddressed, administratively up and without a link. -/
def fresh (name : String) (mac : MacAddress) : Interface :=
  { name := name, mac := mac, mtu := defaultMtu name }

def network (i : Interface) : Option Network := i.address.map (·.network)

def isAdminDown (i : Interface) : Bool := i.status.admin == .down

/-- An interface with an address that is administratively up contributes the route to its own
network, whatever its link. -/
def hasConnectedRoute (i : Interface) : Bool := i.address.isSome && i.status.admin == .up

def withAdmin (i : Interface) (a : AdminState) : Interface :=
  { i with status := i.status.withAdmin a }

def withLink (i : Interface) (l : LinkState) : Interface :=
  { i with status := i.status.withLink l }

def withAddress (i : Interface) (a : Option InterfaceAddress) : Interface := { i with address := a }

/-- The interface with its configuration wiped: no address, and administratively up. -/
def cleared (i : Interface) : Interface := (i.withAddress none).withAdmin .up

@[simp] theorem name_withAdmin (i : Interface) (a : AdminState) :
    (i.withAdmin a).name = i.name := rfl

@[simp] theorem name_withLink (i : Interface) (l : LinkState) :
    (i.withLink l).name = i.name := rfl

@[simp] theorem name_withAddress (i : Interface) (a : Option InterfaceAddress) :
    (i.withAddress a).name = i.name := rfl

@[simp] theorem name_cleared (i : Interface) : i.cleared.name = i.name := rfl

end Interface

/-- The kinds of device other than routers. -/
inductive PeerKind where
  | switchPort
  | host
  deriving DecidableEq, Repr

def PeerKind.tag : PeerKind → String
  | .switchPort => "switch-port"
  | .host => "host"

/-- An interface of another device. It has no administrative state. -/
structure PeerInterface where
  kind : PeerKind
  name : String
  address : Option InterfaceAddress := none
  mac : MacAddress
  deriving DecidableEq

/-- What may be at the far end of a cable. -/
inductive Neighbor where
  | router (interface : Interface)
  | peer (interface : PeerInterface)
  deriving DecidableEq

/-- The link of an interface is up exactly when there is a neighbour and the neighbour is not an
administratively disabled router interface. -/
def resolveLink : Option Neighbor → LinkState
  | none => .down
  | some (.peer _) => .up
  | some (.router i) => if i.status.admin = .up then .up else .down

def Interface.relink (lookup : String → Option Neighbor) (i : Interface) : Interface :=
  i.withLink (resolveLink (lookup i.name))

@[simp] theorem Interface.name_relink (lookup : String → Option Neighbor) (i : Interface) :
    (i.relink lookup).name = i.name := rfl

end RouterConsole
