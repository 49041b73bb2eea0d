import RouterConsole.Config.Directive
import RouterConsole.Config.Error

/-!
# The grammar of configuration paths

A path is a list of tokens; it is read from left to right and refused at the first token that does
not fit. Interface names must be among those that the router has, and are checked as soon as they
are read.
-/
namespace RouterConsole.Config

/-- The next token and the rest; `last` is the token before. -/
def nextToken (last : Token) : List Token → Except Error (Token × List Token)
  | [] => .error ((Fault.unexpectedEnd last.line).at last)
  | t :: ts => .ok (t, ts)

def expectWord (keyword : String) (last : Token) (ts : List Token) :
    Except Error (Token × List Token) := do
  let (t, rest) ← nextToken last ts
  if t.value = keyword then return (t, rest) else throw ((Fault.expectedWord keyword).at t)

def expectInterface (names : List String) (last : Token) (ts : List Token) :
    Except Error (Token × List Token) := do
  let (t, rest) ← nextToken last ts
  if t.value ∈ names then return (t, rest) else throw ((Fault.unknownInterface t.value).at t)

/-- Refuses tokens after the end of an interface path. -/
def expectEnd : List Token → Except Error Unit
  | [] => .ok ()
  | t :: _ => .error (Fault.unknownInterfaceOption.at t)

/-- The value of a token, or the fault that it has at that token. -/
def readValue {α : Type} (read : String → Except ValueFault α)
    (fault : String → ValueFault → Fault) (t : Token) : Except Error α :=
  (read t.value).mapError fun f => (fault t.value f).at t

/-- The rest of a path that starts with `interfaces`. An address that is to come from the network
has no effect. -/
def interfacePath (names : List String) (head : Token) (ts : List Token) :
    Except Error (Option Directive) := do
  let (ethernet, ts) ← expectWord "ethernet" head ts
  let (name, ts) ← expectInterface names ethernet ts
  let (option, ts) ← nextToken name ts
  if option.value = "address" then
    let (value, ts) ← nextToken option ts
    expectEnd ts
    if value.value = "dhcp" then return none
    let address ← readValue Value.interfaceAddress .badAddress value
    return some (.address name.value address value)
  else if option.value = "disable" then
    expectEnd ts
    return some (.disable name.value option)
  else throw (Fault.unknownInterfaceOption.at option)

/-- The options of a route: any number of distances, of which the last counts, and of `disable`. -/
def routeOptions (distance : Distance) (disable : Bool) :
    List Token → Except Error (Distance × Bool)
  | [] => .ok (distance, disable)
  | t :: ts =>
    if t.value = "distance" then
      match ts with
      | [] => .error ((Fault.unexpectedEnd t.line).at t)
      | v :: rest => do
        let distance ← readValue Value.distance .badDistance v
        routeOptions distance disable rest
    else if t.value = "disable" then routeOptions distance true ts
    else .error (Fault.unknownRouteOption.at t)

def routeTarget (names : List String) (last : Token) (ts : List Token) :
    Except Error (RouteTarget × List Token) := do
  let (kind, ts) ← nextToken last ts
  if kind.value = "next-hop" then
    let (value, ts) ← nextToken kind ts
    let gateway ← readValue Value.gateway .badGateway value
    return (.nextHop gateway, ts)
  else if kind.value = "interface" then
    let (name, ts) ← expectInterface names kind ts
    return (.interface name.value, ts)
  else throw (Fault.expectedTarget.at kind)

def routePath (names : List String) (head : Token) (ts : List Token) : Except Error Directive := do
  let (static, ts) ← expectWord "static" head ts
  let (route, ts) ← expectWord "route" static ts
  let (value, ts) ← nextToken route ts
  let destination ← readValue Value.network .badDestination value
  let (target, ts) ← routeTarget names value ts
  let (distance, disable) ← routeOptions .default false ts
  return .route { destination := destination, target := target, distance := distance } disable value

/-- What a path asks for, or `none` if it has no effect. -/
def interpret (names : List String) : List Token → Except Error (Option Directive)
  | [] => .error ⟨.emptyPath, none⟩
  | head :: ts =>
    if head.value = "interfaces" then interfacePath names head ts
    else if head.value = "protocols" then some <$> routePath names head ts
    else .error (Fault.unknownPath.at head)

end RouterConsole.Config
