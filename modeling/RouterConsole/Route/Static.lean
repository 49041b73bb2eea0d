import RouterConsole.Interface.Description
import RouterConsole.Text.Blank

/-!
# Static routes

A route leads the packets for a destination either to a gateway or out of an interface, never both,
and competes with other routes by its administrative distance. Two routes are the same route when
destination, target and distance agree, whether or not one of them is switched off.
-/
namespace RouterConsole

open IPv4 (Address Network)

inductive RouteTarget where
  | nextHop (gateway : Address)
  | interface (name : String)
  deriving DecidableEq

def RouteTarget.text : RouteTarget → String
  | .nextHop g => g.text
  | .interface n => n

def RouteTarget.gateway? : RouteTarget → Option Address
  | .nextHop g => some g
  | .interface _ => none

def RouteTarget.interface? : RouteTarget → Option String
  | .nextHop _ => none
  | .interface n => some n

/-- The two words that a configuration path has for a target. -/
def RouteTarget.words : RouteTarget → List String
  | .nextHop g => ["next-hop", g.text]
  | .interface n => ["interface", n]

structure Distance where
  toNat : Nat
  one_le : 1 ≤ toNat := by decide
  le_255 : toNat ≤ 255 := by decide
  deriving DecidableEq

def Distance.default : Distance := ⟨1, by decide, by decide⟩

def Distance.ofInt? (n : Int) : Option Distance :=
  if h : 1 ≤ n ∧ n ≤ 255 then some ⟨n.toNat, by omega, by omega⟩ else none

/-- A static route, and whether it is switched off. -/
structure StaticRoute where
  destination : Network
  target : RouteTarget
  distance : Distance := .default
  disabled : Bool := false
  deriving DecidableEq

namespace StaticRoute

/-- What makes two routes the same route. -/
def key (r : StaticRoute) : Network × RouteTarget × Distance :=
  (r.destination, r.target, r.distance)

def same (a b : StaticRoute) : Bool := a.key == b.key

theorem same_iff {a b : StaticRoute} : a.same b = true ↔ a.key = b.key := by
  simp only [same, beq_iff_eq]

@[simp] theorem key_disabled (r : StaticRoute) (b : Bool) :
    { r with disabled := b }.key = r.key := rfl

/-- The words of the configuration path of a route; the default distance is not written. -/
def pathWords (r : StaticRoute) : List String :=
  ["protocols", "static", "route", r.destination.text] ++ r.target.words ++
    if r.distance = .default then [] else ["distance", toString r.distance.toNat]

def configPath (r : StaticRoute) : String := Text.unwords r.pathWords

end StaticRoute

structure RouteDescription where
  destination : Option String := none
  nextHop : Option String := none
  interface : Option String := none
  distance : Int := 1
  disabled : Bool := false
  deriving DecidableEq, Repr

def checkDestination : Option String → Checked Network
  | none => .error .missing
  | some s => (Network.parse s).mapError fun _ => .rejected ("Invalid CIDR network: " ++ s)

def checkGateway : Option String → Checked (Option Address)
  | none => .ok none
  | some s => ((Address.parse s).map some).mapError fun _ => .notAddress

/-- The bounds of a described distance. A distance that is read from a text has bounds of its own,
in `Distance.ofInt?`. -/
def checkDistance (n : Int) : Checked Distance :=
  match h : checkRange 1 255 n with
  | .error problem => .error problem
  | .ok m =>
    have hrange := checkRange_eq_ok_iff.mp h
    .ok ⟨m, by omega, by omega⟩

/-- Builds the described route. That there is exactly one target is checked last, once every field
is sound. -/
def RouteDescription.build (d : RouteDescription) : Except ValidationError StaticRoute :=
  let destination := checkDestination d.destination
  let gateway := checkGateway d.nextHop
  let distance := checkDistance d.distance
  match destination, gateway, distance with
  | .ok destination, .ok gateway, .ok distance =>
    match gateway, d.interface with
    | some g, none => .ok ⟨destination, .nextHop g, distance, d.disabled⟩
    | none, some i => .ok ⟨destination, .interface i, distance, d.disabled⟩
    | _, _ =>
      .error (.single "" (.rejected "Static route requires exactly one of next-hop or interface"))
  | _, _, _ =>
    .error ⟨destination.fault "destination" ++ gateway.fault "next_hop" ++
      distance.fault "distance"⟩

end RouterConsole
