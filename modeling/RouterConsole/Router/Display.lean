import RouterConsole.Router.Basic
import RouterConsole.Text.Line

/-!
# What the router shows

The routing table and the list of interfaces, both of the committed configuration and both only in
operational mode. Routes are ordered by the text of their network's address and, where that is the
same, from the longest prefix to the shortest; routes to one network keep the order in which they
were found, connected ones first.
-/
namespace RouterConsole

open IPv4 (Network)

/-- What a line of the routing table says about how to get to its network. -/
inductive RouteRow where
  | connected (destination : Network) (interface : String)
  | static (destination : Network) (target : RouteTarget) (distance : Distance)
  deriving DecidableEq

namespace RouteRow

def destination : RouteRow → Network
  | connected d _ | static d _ _ => d

def text : RouteRow → String
  | connected d i => "C>* " ++ d.text ++ " is directly connected, " ++ i
  | static d t k =>
    "S>* " ++ d.text ++ " [" ++ toString k.toNat ++ "] via " ++ t.text

def le (a b : RouteRow) : Bool :=
  let x := a.destination.base.text
  let y := b.destination.base.text
  x < y || (x == y && b.destination.length ≤ a.destination.length)

end RouteRow

namespace Configuration

/-- The routes to the networks of addressed interfaces that are administratively up. -/
def connectedRows (c : Configuration) : List RouteRow :=
  c.interfaces.filterMap fun i =>
    if i.hasConnectedRoute then i.network.map (.connected · i.name) else none

def staticRows (c : Configuration) : List RouteRow :=
  c.routes.active.map fun r => .static r.destination r.target r.distance

def routeRows (c : Configuration) : List RouteRow :=
  (c.connectedRows ++ c.staticRows).mergeSort RouteRow.le

end Configuration

def routeLegend : String :=
  "Codes: K - kernel route, C - connected, S - static, R - RIP,\n" ++
  "       O - OSPF, I - IS-IS, B - BGP, E - EIGRP, N - NHRP,\n" ++
  "       T - Table, v - VNC, V - VNC-Direct, A - Babel, F - PBR,\n" ++
  "       f - OpenFabric,\n" ++
  "       > - selected route, * - FIB route, q - queued, r - rejected, b - backup\n" ++
  "       t - trapped, o - offload failure\n"

/-- A text filled up with spaces to a width. -/
def column (width : Nat) (s : String) : String :=
  s ++ String.ofList (List.replicate (width - s.length) ' ')

/-- One line of the list of interfaces: seven columns, of which the last is open. -/
def interfaceLine (name address status mac vrf mtu description : String) : String :=
  Text.unwords [column 16 name, column 33 address, column 4 status, column 17 mac, column 10 vrf,
    column 6 mtu, description]

def Interface.line (i : Interface) : String :=
  let line := interfaceLine i.name (i.address.elim "-" (·.text)) i.status.text i.mac.text i.vrf
    (toString i.mtu) (i.description.getD "")
  String.ofList (Text.trimEnd line.toList)

def interfaceHeader : List String :=
  ["Codes: S - State, L - Link, u - Up, D - Down, A - Admin Down",
    interfaceLine "Interface" "IP Address" "S/L" "MAC" "VRF" "MTU" "Description",
    interfaceLine "---------" "----------" "---" "---" "---" "---" "-----------"]

namespace Router

def showRoutes (r : Router) : Except RouterError String := do
  r.requireOperational "show [ip]"
  return Text.unlines (routeLegend :: r.committed.routeRows.map (·.text))

def showInterfaces (r : Router) : Except RouterError String := do
  r.requireOperational "show [interfaces]"
  return Text.unlines (interfaceHeader ++ r.committed.interfaces.map (·.line))

end Router

end RouterConsole
