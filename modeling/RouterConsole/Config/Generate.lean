import RouterConsole.Config.Notation

/-!
# Writing a configuration

A configuration is written in load order: the interfaces, then the routes, which may refer to them.
Links are no part of it. Both notations write the same statements.
-/
namespace RouterConsole.Config

/-- The paths that configure an interface: its address, then its being disabled. -/
def interfaceStatements (i : Interface) : List (List String) :=
  (i.address.map (addressWords i.name)).toList ++
    if i.isAdminDown then [disableWords i.name] else []

/-- The paths that configure a route: the route, then its being switched off. -/
def routeStatements (r : StaticRoute) : List (List String) :=
  r.pathWords :: if r.disabled then [disableRouteWords r] else []

def command (path : List String) : String := Text.unwords ("set" :: path)

def interfaceCommands (interfaces : List Interface) : List String :=
  (interfaces.flatMap interfaceStatements).map command

def routeCommands (routes : RoutingTable) : List String :=
  (routes.entries.flatMap routeStatements).map command

def commands (c : Configuration) : List String :=
  interfaceCommands c.interfaces ++ routeCommands c.routes

/-- The lines of a block; what is inside is indented by four spaces. -/
def block (name : String) (body : List String) : List String :=
  (name ++ " \x7b") :: body.map ("    " ++ ·) ++ ["\x7d"]

def blockUnlessEmpty (name : String) (body : List String) : List String :=
  if body = [] then [] else block name body

def interfaceBlock (i : Interface) : List String :=
  blockUnlessEmpty ("ethernet " ++ i.name)
    ((i.address.map fun a => "address " ++ a.text).toList ++
      if i.isAdminDown then ["disable"] else [])

/-- The block of a route: its target, then its distance unless it is the default one, then its
being switched off. -/
def routeBlock (r : StaticRoute) : List String :=
  block ("route " ++ r.destination.text)
    (Text.unwords r.target.words ::
      (if r.distance = .default then [] else ["distance " ++ toString r.distance.toNat]) ++
      if r.disabled then ["disable"] else [])

def blocks (c : Configuration) : List String :=
  let routes := c.routes.entries.flatMap routeBlock
  blockUnlessEmpty "interfaces" (c.interfaces.flatMap interfaceBlock) ++
    if routes = [] then [] else block "protocols" (block "static" routes)

/-- The text of a configuration; empty if nothing is configured. -/
def generate (format : Format) (c : Configuration) : String :=
  Text.unlines (match format with
    | .commands => commands c
    | .hierarchical => blocks c)

end RouterConsole.Config
