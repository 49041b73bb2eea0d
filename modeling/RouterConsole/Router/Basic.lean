import RouterConsole.Route.Table
import RouterConsole.Router.Error

/-!
# The router and its two configurations

A router holds two copies of its configuration: the committed one, which is in force, and the
staged one, which configuration mode edits. Only a commit changes the committed copy. `dirty` says
that the staged copy was touched since it was last taken from, or became, the committed one.
-/
namespace RouterConsole

inductive Mode where
  | operational
  | configuration
  deriving DecidableEq, Repr

def Mode.name : Mode → String
  | .operational => "operational"
  | .configuration => "configuration"

/-- What a commit publishes: the interfaces and the static routes. -/
structure Configuration where
  interfaces : List Interface
  routes : RoutingTable := {}
  deriving DecidableEq

namespace Configuration

def interface? (c : Configuration) (name : String) : Option Interface :=
  c.interfaces.find? (·.name == name)

def names (c : Configuration) : List String := c.interfaces.map (·.name)

/-- Changes the first of some interfaces that has this name. -/
def updateFirst (name : String) (f : Interface → Interface) : List Interface → List Interface
  | [] => []
  | i :: is => if i.name == name then f i :: is else i :: updateFirst name f is

def update (c : Configuration) (name : String) (f : Interface → Interface) : Configuration :=
  { c with interfaces := updateFirst name f c.interfaces }

/-- The blank slate that a full load starts from: no addresses, every interface administratively
up, no routes. -/
def cleared (c : Configuration) : Configuration :=
  { interfaces := c.interfaces.map Interface.cleared, routes := {} }

theorem interface?_eq_none_iff {c : Configuration} {name : String} :
    c.interface? name = none ↔ name ∉ c.names := by
  simp [interface?, names]

theorem name_of_interface? {c : Configuration} {name : String} {i : Interface}
    (h : c.interface? name = some i) : i.name = name := by
  simpa using List.find?_some h

theorem names_update {c : Configuration} {name : String} {f : Interface → Interface}
    (h : ∀ i, (f i).name = i.name) : (c.update name f).names = c.names := by
  simp only [names, update]
  induction c.interfaces with
  | nil => rfl
  | cons i is ih =>
    unfold updateFirst
    split
    · rw [List.map_cons, List.map_cons, h]
    · rw [List.map_cons, List.map_cons, ih]

@[simp] theorem names_cleared (c : Configuration) : c.cleared.names = c.names := by
  simp [names, cleared]

end Configuration

/-- A router. `initial` is what it was built with and what a reset returns to. -/
structure Router where
  name : String
  initial : List Interface
  committed : Configuration
  staged : Configuration
  mode : Mode := .operational
  dirty : Bool := false
  deriving DecidableEq

namespace Router

/-- A router in operational mode with the given interfaces and no routes. -/
def new (name : String) (interfaces : List Interface) : Router :=
  { name := name, initial := interfaces, committed := { interfaces := interfaces },
    staged := { interfaces := interfaces } }

def reset (r : Router) : Router := new r.name r.initial

def prompt (r : Router) : String :=
  r.name ++ (if r.mode = .configuration then "#" else "$") ++ " "

/-- The configuration that the current mode shows. -/
def visible (r : Router) : Configuration :=
  if r.mode = .configuration then r.staged else r.committed

def findInterface (r : Router) (name : String) : Option Interface := r.visible.interface? name

def interfaceNames (r : Router) : List String := r.visible.names

def getInterface (r : Router) (name : String) : Except RouterError Interface :=
  (r.committed.interface? name).elim (.error (.noSuchInterface name)) .ok

/-- The router with its staged configuration taken from the committed one. -/
def restage (r : Router) : Router := { r with staged := r.committed, dirty := false }

/-- Changes the mode. Configuration mode starts from the committed configuration, and is not left
while edits wait for a commit. -/
def setMode (r : Router) (mode : Mode) : Except RouterError Router :=
  if mode = r.mode then .ok r
  else match r.mode with
    | .configuration =>
      if r.dirty then .error .uncommittedChanges else .ok { r with mode := .operational }
    | .operational => .ok { r.restage with mode := .configuration }

/-- Changes the mode and drops the edits that wait for a commit. -/
def forceMode (r : Router) (mode : Mode) : Router :=
  let r := if r.mode = .configuration ∧ r.dirty then r.restage else r
  if mode = r.mode then r
  else match r.mode with
    | .configuration => { r with mode := .operational }
    | .operational => { r.restage with mode := .configuration }

def requireConfiguration (r : Router) (command : String) : Except RouterError Unit :=
  if r.mode = .configuration then .ok () else .error (.wrongMode command)

def requireOperational (r : Router) (command : String) : Except RouterError Unit :=
  if r.mode = .operational then .ok () else .error (.wrongMode command)

def commit (r : Router) : Except RouterError Router := do
  r.requireConfiguration "[commit]"
  if r.dirty then return { r with committed := r.staged, dirty := false }
  else throw .nothingToCommit

def discard (r : Router) : Except RouterError Router := do
  r.requireConfiguration "[discard]"
  return r.restage

/-- Wipes the staged configuration, so that what follows describes all of it. -/
def clear (r : Router) : Except RouterError Router :=
  if r.mode = .configuration then .ok { r with staged := r.staged.cleared, dirty := true }
  else .error .clearOutsideConfiguration

/-- Configurations do not survive a restart, so there is nowhere to save them. -/
def save (_ : Router) : Except RouterError Router := .error .saveUnsupported

/-- Takes the links of the selected interfaces, or of all of them, from their neighbours. A link is
no part of the configuration, so both copies change and nothing becomes dirty. -/
def updateLinks (r : Router) (lookup : String → Option Neighbor)
    (selection : Option (List String) := none) : Router :=
  let relink (i : Interface) : Interface :=
    if selection.all (·.contains i.name) then i.relink lookup else i
  { r with
    committed := { r.committed with interfaces := r.committed.interfaces.map relink }
    staged := { r.staged with interfaces := r.staged.interfaces.map relink } }

def summary (r : Router) : String :=
  "Router(name=" ++ Text.quoted r.name ++ ", mode=" ++ r.mode.name ++ ", interfaces=" ++
    toString r.committed.interfaces.length ++ ", routes=" ++
    toString r.committed.routes.entries.length ++ ")"

end Router

end RouterConsole
