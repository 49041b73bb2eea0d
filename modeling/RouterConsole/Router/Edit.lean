import RouterConsole.Router.Basic

/-!
# Edits of the staged configuration

The seven ways to change the staged configuration. An edit is refused outside configuration mode,
and then if what it names is not there, and then if it would change nothing; an edit that is
accepted marks the router dirty and touches one interface or one route.
-/
namespace RouterConsole

open IPv4 (InterfaceAddress)

/-- A change of the staged configuration. -/
inductive Edit where
  | addRoute (route : StaticRoute)
  | removeRoute (route : StaticRoute)
  | disableRoute (route : StaticRoute)
  | setAddress (interface : String) (address : InterfaceAddress)
  /-- Without an address, whatever address the interface has. -/
  | deleteAddress (interface : String) (address : Option InterfaceAddress)
  | disableInterface (interface : String)
  | enableInterface (interface : String)
  deriving DecidableEq

/-- The command that an edit belongs to, as a refusal in the wrong mode names it. -/
def Edit.command : Edit → String
  | .addRoute _ | .disableRoute _ => "set [protocols]"
  | .removeRoute _ => "delete [protocols]"
  | .setAddress _ _ | .disableInterface _ => "set [interfaces]"
  | .deleteAddress _ _ | .enableInterface _ => "delete [interfaces]"

def addressProblem? (a : InterfaceAddress) : Option AddressProblem :=
  if a.isNetworkAddress then some .network
  else if a.isBroadcastAddress then some .broadcast
  else none

def Interface.disable (i : Interface) : Except RouterError Interface :=
  if i.isAdminDown then .error (.alreadyDisabled i.name) else .ok (i.withAdmin .down)

def Interface.enable (i : Interface) : Except RouterError Interface :=
  if i.isAdminDown then .ok (i.withAdmin .up) else .error (.notDisabled i.name)

namespace Configuration

def requireInterface (c : Configuration) (name : String) : Except RouterError Interface :=
  (c.interface? name).elim (.error (.noSuchInterface name)) .ok

/-- The configuration after an edit, or why the edit is refused. -/
def edit (c : Configuration) : Edit → Except RouterError Configuration
  | .addRoute route => do
    if let .interface name := route.target then
      let _ ← c.requireInterface name
    if c.routes.contains route then throw .routeExists
    return { c with routes := c.routes.add route }
  | .removeRoute route =>
    match c.routes.remove? route with
    | none => .error .noRouteToDelete
    | some routes => .ok { c with routes := routes }
  | .disableRoute route =>
    match c.routes.find? route with
    | none => .error .noSuchRoute
    | some entry =>
      if entry.disabled then .error .routeExists
      else .ok { c with routes := c.routes.disable route }
  | .setAddress name address => do
    let interface ← c.requireInterface name
    if let some problem := addressProblem? address then
      throw (.unusableAddress address problem address.suggestion?)
    if interface.address = some address then throw .addressExists
    return c.update name (·.withAddress (some address))
  | .deleteAddress name address? => do
    let interface ← c.requireInterface name
    if interface.address.isNone || (address?.isSome && interface.address != address?) then
      throw .noAddressToDelete
    return c.update name (·.withAddress none)
  | .disableInterface name => do
    let disabled ← (← c.requireInterface name).disable
    return c.update name fun _ => disabled
  | .enableInterface name => do
    let enabled ← (← c.requireInterface name).enable
    return c.update name fun _ => enabled

end Configuration

def Router.edit (r : Router) (e : Edit) : Except RouterError Router := do
  r.requireConfiguration e.command
  return { r with staged := ← r.staged.edit e, dirty := true }

end RouterConsole
