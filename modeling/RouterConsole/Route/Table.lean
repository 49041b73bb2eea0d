import RouterConsole.Route.Static

/-!
# Routing tables

A table keeps its entries in the order in which they were added and keeps duplicates; whoever adds
a route decides whether it may be there twice.
-/
namespace RouterConsole

open IPv4 (Network)

structure RoutingTable where
  entries : List StaticRoute := []
  deriving DecidableEq

namespace RoutingTable

def keys (t : RoutingTable) : List (Network × RouteTarget × Distance) := t.entries.map (·.key)

def add (t : RoutingTable) (r : StaticRoute) : RoutingTable := ⟨t.entries ++ [r]⟩

def find? (t : RoutingTable) (r : StaticRoute) : Option StaticRoute := t.entries.find? (·.same r)

def indexOf? (t : RoutingTable) (r : StaticRoute) : Option Nat := t.entries.findIdx? (·.same r)

def contains (t : RoutingTable) (r : StaticRoute) : Bool := t.entries.any (·.same r)

def remove? (t : RoutingTable) (r : StaticRoute) : Option RoutingTable :=
  if t.contains r then some ⟨t.entries.eraseP (·.same r)⟩ else none

/-- Switches off the first of some entries that is the given route. -/
def disableFirst (r : StaticRoute) : List StaticRoute → List StaticRoute
  | [] => []
  | e :: es => if e.same r then { e with disabled := true } :: es else e :: disableFirst r es

def disable (t : RoutingTable) (r : StaticRoute) : RoutingTable := ⟨disableFirst r t.entries⟩

def active (t : RoutingTable) : List StaticRoute := t.entries.filter (!·.disabled)

@[simp] theorem keys_add (t : RoutingTable) (r : StaticRoute) :
    (t.add r).keys = t.keys ++ [r.key] := by
  simp only [keys, add, List.map_append, List.map_cons, List.map_nil]

theorem contains_iff {t : RoutingTable} {r : StaticRoute} :
    t.contains r = true ↔ r.key ∈ t.keys := by
  simp only [contains, keys, List.any_eq_true, StaticRoute.same_iff, List.mem_map]

theorem isSome_find? (t : RoutingTable) (r : StaticRoute) : (t.find? r).isSome = t.contains r := by
  rw [find?, contains, Bool.eq_iff_iff, List.find?_isSome, List.any_eq_true]

theorem map_key_disableFirst (r : StaticRoute) (es : List StaticRoute) :
    (disableFirst r es).map (·.key) = es.map (·.key) := by
  induction es with
  | nil => rfl
  | cons e es ih =>
    unfold disableFirst
    split
    · rfl
    · rw [List.map_cons, List.map_cons, ih]

@[simp] theorem keys_disable (t : RoutingTable) (r : StaticRoute) : (t.disable r).keys = t.keys :=
  map_key_disableFirst r t.entries

/-- A route that is removed was there; the other entries keep their order. -/
theorem keys_remove? {t t' : RoutingTable} {r : StaticRoute} (h : t.remove? r = some t') :
    r.key ∈ t.keys ∧ t'.keys = t.keys.erase r.key := by
  unfold remove? at h
  split at h
  · rename_i hc
    refine ⟨contains_iff.mp hc, ?_⟩
    obtain rfl := Option.some.inj h
    simp only [keys]
    clear h hc
    induction t.entries with
    | nil => rfl
    | cons e es ih =>
      rw [List.eraseP_cons, List.map_cons, List.erase_cons]
      cases hs : e.same r with
      | true => rw [cond_true, if_pos (beq_iff_eq.mpr (StaticRoute.same_iff.mp hs))]
      | false =>
        have hne : ¬(e.key == r.key) = true := fun h => by simp [StaticRoute.same, h] at hs
        rw [cond_false, if_neg hne, List.map_cons, ih]
  · simp at h

end RoutingTable

end RouterConsole
