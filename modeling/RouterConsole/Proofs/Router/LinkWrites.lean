import Mathlib.Data.List.Forall2
import RouterConsole.Proofs.Router.Links

/-!
# What new links write

Taking links writes the link of the selected interfaces, in both copies of the configuration, and
nothing else. Since the neighbours decide what is written, with the same neighbours it does not
matter in how many steps, in which order and how often interfaces are selected, but only which are
selected at all.
-/
namespace RouterConsole

/-- A selection picks out all names, or those that it lists. -/
def Selects (selection : Option (List String)) (name : String) : Prop :=
  ∀ names, selection = some names → name ∈ names

theorem all_contains_iff {selection : Option (List String)} {name : String} :
    selection.all (·.contains name) = true ↔ Selects selection name := by
  cases selection with
  | none => exact ⟨fun _ => nofun, fun _ => rfl⟩
  | some names => simp [Selects]

/-- What one of two selections picks out. -/
def joinSelections : Option (List String) → Option (List String) → Option (List String)
  | some names, some names' => some (names ++ names')
  | none, _ | _, none => none

theorem selects_joinSelections_iff {A B : Option (List String)} {name : String} :
    Selects (joinSelections A B) name ↔ Selects A name ∨ Selects B name := by
  cases A with
  | none => simp [joinSelections, Selects]
  | some names => cases B <;> simp [joinSelections, Selects]

/-- What one of some selections picks out. -/
def joinAll : List (Option (List String)) → Option (List String) :=
  List.foldr joinSelections (some [])

theorem selects_joinAll_iff {selections : List (Option (List String))} {name : String} :
    Selects (joinAll selections) name ↔ ∃ A ∈ selections, Selects A name := by
  induction selections with
  | nil => simp [joinAll, Selects]
  | cons A selections ih =>
    rw [joinAll, List.foldr_cons, selects_joinSelections_iff, List.exists_mem_cons_iff, ← ih]
    rfl

/-- No neighbour, or one that its operator has switched off. -/
def Unanswered (neighbor : Option Neighbor) : Prop :=
  neighbor = none ∨ ∃ i, neighbor = some (.router i) ∧ i.status.admin = .down

theorem resolveLink_of_unanswered {neighbor : Option Neighbor} (h : Unanswered neighbor) :
    resolveLink neighbor = .down := by
  obtain rfl | ⟨i, rfl, hadmin⟩ := h
  · rfl
  · rw [resolveLink, hadmin]
    rfl

theorem resolveLink_of_answered {neighbor : Option Neighbor} (h : ¬Unanswered neighbor) :
    resolveLink neighbor = .up := by
  cases neighbor with
  | none => exact absurd (.inl rfl) h
  | some n =>
    cases n with
    | peer p => rfl
    | router i =>
      cases hadmin : i.status.admin with
      | up => rw [resolveLink, hadmin, if_pos rfl]
      | down => exact absurd (.inr ⟨i, rfl, hadmin⟩) h

/-- What taking the links of the selected interfaces makes of one interface. -/
structure Interface.Relinked (lookup : String → Option Neighbor)
    (selection : Option (List String)) (i j : Interface) : Prop where
  down : Selects selection i.name → Unanswered (lookup i.name) → j.status.link = .down
  up : Selects selection i.name → ¬Unanswered (lookup i.name) → j.status.link = .up
  unselected : ¬Selects selection i.name → j = i
  /-- Whether selected or not, the interface differs in nothing but its link. -/
  rest : j.withLink i.status.link = i

namespace Interface

variable {lookup : String → Option Neighbor} {A B : Option (List String)} {i : Interface}

theorem relinkSelected_of_selects (h : Selects A i.name) :
    i.relinkSelected lookup A = i.relink lookup := if_pos (all_contains_iff.mpr h)

theorem relinkSelected_of_not_selects (h : ¬Selects A i.name) :
    i.relinkSelected lookup A = i := if_neg (mt all_contains_iff.mp h)

theorem relinked_relinkSelected (lookup : String → Option Neighbor) (A : Option (List String))
    (i : Interface) : Relinked lookup A i (i.relinkSelected lookup A) := by
  by_cases h : Selects A i.name
  · rw [relinkSelected_of_selects h]
    exact ⟨fun _ => resolveLink_of_unanswered, fun _ => resolveLink_of_answered,
      fun hn => absurd h hn, rfl⟩
  · rw [relinkSelected_of_not_selects h]
    exact ⟨fun hs => absurd hs h, fun hs => absurd hs h, fun _ => rfl, rfl⟩

theorem relinkSelected_congr (h : Selects A i.name ↔ Selects B i.name) :
    i.relinkSelected lookup A = i.relinkSelected lookup B := by
  by_cases hB : Selects B i.name
  · rw [relinkSelected_of_selects (h.mpr hB), relinkSelected_of_selects hB]
  · rw [relinkSelected_of_not_selects (mt h.mp hB), relinkSelected_of_not_selects hB]

/-- A link that is taken again is the same, so it is enough to be selected once. -/
theorem relinkSelected_relinkSelected (lookup : String → Option Neighbor)
    (A B : Option (List String)) (i : Interface) :
    (i.relinkSelected lookup A).relinkSelected lookup B =
      i.relinkSelected lookup (joinSelections A B) := by
  by_cases hA : Selects A i.name
  · have hjoin : Selects (joinSelections A B) i.name := selects_joinSelections_iff.mpr (.inl hA)
    rw [relinkSelected_of_selects hA, relinkSelected_of_selects hjoin]
    by_cases hB : Selects B (i.relink lookup).name
    · rw [relinkSelected_of_selects hB]
      rfl
    · rw [relinkSelected_of_not_selects hB]
  · rw [relinkSelected_of_not_selects hA]
    apply relinkSelected_congr
    rw [selects_joinSelections_iff, or_iff_right hA]

end Interface

namespace Configuration

theorem relinkSelected_relinkSelected (lookup : String → Option Neighbor)
    (A B : Option (List String)) (c : Configuration) :
    (c.relinkSelected lookup A).relinkSelected lookup B =
      c.relinkSelected lookup (joinSelections A B) := by
  simp only [relinkSelected, List.map_map]
  refine congrArg (mk · _) (List.map_congr_left fun i _ => ?_)
  exact i.relinkSelected_relinkSelected lookup A B

theorem relinkSelected_congr {A B : Option (List String)}
    (h : ∀ name, Selects A name ↔ Selects B name) (lookup : String → Option Neighbor)
    (c : Configuration) : c.relinkSelected lookup A = c.relinkSelected lookup B := by
  refine congrArg (mk · _) (List.map_congr_left fun i _ => ?_)
  exact Interface.relinkSelected_congr (h i.name)

theorem relinkSelected_nothing (lookup : String → Option Neighbor) (c : Configuration) :
    c.relinkSelected lookup (some []) = c := by
  refine congrArg (mk · _) (List.map_id'' (fun i => ?_) c.interfaces)
  exact Interface.relinkSelected_of_not_selects fun h => absurd (h [] rfl) List.not_mem_nil

theorem relinked_relinkSelected (lookup : String → Option Neighbor) (A : Option (List String))
    (c : Configuration) :
    c.interfaces.Forall₂ (Interface.Relinked lookup A)
      (c.relinkSelected lookup A).interfaces := by
  apply List.forall₂_map_right_iff.mpr
  exact List.forall₂_same.mpr fun i _ => i.relinked_relinkSelected lookup A

end Configuration

namespace Router

variable (lookup : String → Option Neighbor)

theorem updateLinks_eq (r : Router) (A : Option (List String)) :
    r.updateLinks lookup A = { r with
      committed := r.committed.relinkSelected lookup A
      staged := r.staged.relinkSelected lookup A } := rfl

/-- Two updates with the same neighbours are one update. -/
theorem updateLinks_updateLinks (r : Router) (A B : Option (List String)) :
    (r.updateLinks lookup A).updateLinks lookup B =
      r.updateLinks lookup (joinSelections A B) := by
  simp only [updateLinks_eq, Configuration.relinkSelected_relinkSelected]

theorem updateLinks_congr {A B : Option (List String)}
    (h : ∀ name, Selects A name ↔ Selects B name) (r : Router) :
    r.updateLinks lookup A = r.updateLinks lookup B := by
  simp only [updateLinks_eq, Configuration.relinkSelected_congr h]

/-- Any number of updates with the same neighbours are one update. -/
theorem foldl_updateLinks (r : Router) (selections : List (Option (List String))) :
    selections.foldl (·.updateLinks lookup ·) r = r.updateLinks lookup (joinAll selections) := by
  induction selections generalizing r with
  | nil =>
    simp only [updateLinks_eq, joinAll, List.foldr_nil, Configuration.relinkSelected_nothing]
    rfl
  | cons A selections ih =>
    rw [List.foldl_cons, ih, updateLinks_updateLinks]
    rfl

/-- Taking links writes exactly the links of the selected interfaces, in both copies of the
configuration: down where there is no neighbour or the neighbour is a router interface that is
administratively down, and up elsewhere. Nothing else of an interface changes, and nothing else of
the router. With the same neighbours, an update for the names of one selection and one for those of
another may come in either order and are one update for the names of both, so a repeated update
changes nothing; and any two sequences of updates that select the same names lead to the same
router. -/
theorem links_are_written_exactly (r : Router) :
    (∀ A : Option (List String),
      r.committed.interfaces.Forall₂ (Interface.Relinked lookup A)
          (r.updateLinks lookup A).committed.interfaces ∧
        r.staged.interfaces.Forall₂ (Interface.Relinked lookup A)
          (r.updateLinks lookup A).staged.interfaces ∧
        r.updateLinks lookup A = { r with
          committed :=
            { r.committed with interfaces := (r.updateLinks lookup A).committed.interfaces }
          staged := { r.staged with interfaces := (r.updateLinks lookup A).staged.interfaces } }) ∧
      (∀ A B : Option (List String),
        (r.updateLinks lookup A).updateLinks lookup B =
            (r.updateLinks lookup B).updateLinks lookup A ∧
          (r.updateLinks lookup A).updateLinks lookup B =
            r.updateLinks lookup (joinSelections A B) ∧
          (r.updateLinks lookup A).updateLinks lookup A = r.updateLinks lookup A) ∧
      ∀ As Bs : List (Option (List String)),
        (∀ name, (∃ A ∈ As, Selects A name) ↔ ∃ B ∈ Bs, Selects B name) →
          As.foldl (·.updateLinks lookup ·) r = Bs.foldl (·.updateLinks lookup ·) r := by
  have hsame : ∀ As Bs : List (Option (List String)),
      (∀ name, (∃ A ∈ As, Selects A name) ↔ ∃ B ∈ Bs, Selects B name) →
        As.foldl (·.updateLinks lookup ·) r = Bs.foldl (·.updateLinks lookup ·) r := by
    intro As Bs h
    rw [foldl_updateLinks, foldl_updateLinks]
    apply updateLinks_congr
    intro name
    rw [selects_joinAll_iff, selects_joinAll_iff]
    exact h name
  refine ⟨fun A => ?_, fun A B => ?_, hsame⟩
  · exact ⟨r.committed.relinked_relinkSelected lookup A, r.staged.relinked_relinkSelected lookup A,
      rfl⟩
  · refine ⟨hsame [A, B] [B, A] fun name => ?_, r.updateLinks_updateLinks lookup A B,
      hsame [A, A] [A] fun name => ?_⟩
    · simp [or_comm]
    · simp

/-- With an edit that waits for a commit: a selection with a repeated and an unknown name, then all
names, against one update for all names; the far end of the first cable is switched off. -/
theorem links_are_written_exactly_while_dirty :
    let r := (new "edge" [.fresh "eth0" ⟨.replicate 6 2⟩, .fresh "eth1" ⟨.replicate 6 4⟩]).run
      [.setMode .configuration, .edit (.disableInterface "eth1")]
    let far : Interface := (Interface.fresh "eth9" ⟨.replicate 6 6⟩).withAdmin .down
    let peer : PeerInterface := { kind := .host, name := "eth0", mac := ⟨.replicate 6 8⟩ }
    let lookup : String → Option Neighbor := fun name =>
      if name = "eth0" then some (.router far) else some (.peer peer)
    let few : Option (List String) := some ["eth1", "eth7", "eth1"]
    let linked := r.updateLinks lookup none
    linked.committed.interfaces.map (·.status) = [⟨.up, .down⟩, ⟨.up, .up⟩] ∧
      linked.staged.interfaces.map (·.status) = [⟨.up, .down⟩, ⟨.down, .up⟩] ∧
      linked.dirty = true ∧
      [few, none, few].foldl (·.updateLinks lookup ·) r = linked := by
  intro r far peer lookup few linked
  obtain ⟨-, -, hsame⟩ := links_are_written_exactly lookup r
  have hall : ∀ name,
      (∃ A ∈ [few, none, few], Selects A name) ↔ ∃ B ∈ [none], Selects B name := by
    intro name
    constructor
    · exact fun _ => ⟨none, List.mem_cons_self, nofun⟩
    · exact fun _ => ⟨none, by simp, nofun⟩
  exact ⟨by decide, by decide, by decide, hsame [few, none, few] [none] hall⟩

end Router

end RouterConsole
