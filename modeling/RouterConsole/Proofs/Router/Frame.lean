import RouterConsole.Proofs.Config.Reachable
import RouterConsole.Proofs.Router.EditRules

/-!
# What no change touches

An edit changes only what a clear would wipe: addresses, administrative states and routes. So the
two copies of a configuration, once wiped, are always equal, links included, and apart from the
links the wiped interfaces are those that the router was built with.
-/
namespace RouterConsole

/-- What an interface is, apart from its configuration and its link. -/
def Interface.hardware (i : Interface) :
    String × MacAddress × Nat × String × Option String :=
  (i.name, i.mac, i.mtu, i.vrf, i.description)

/-- An interface with a new link, if it is one of the selected. -/
def Interface.relinkSelected (lookup : String → Option Neighbor)
    (selection : Option (List String)) (i : Interface) : Interface :=
  if selection.all (·.contains i.name) then i.relink lookup else i

namespace Interface

theorem cleared_relinkSelected (lookup : String → Option Neighbor)
    (selection : Option (List String)) (i : Interface) :
    (i.relinkSelected lookup selection).cleared = i.cleared.relinkSelected lookup selection := by
  unfold relinkSelected
  rw [name_cleared]
  split <;> rfl

theorem hardware_relinkSelected (lookup : String → Option Neighbor)
    (selection : Option (List String)) (i : Interface) :
    (i.relinkSelected lookup selection).hardware = i.hardware := by
  unfold relinkSelected
  split <;> rfl

end Interface

namespace Configuration

theorem map_cleared_updateFirst {f : Interface → Interface} (hf : ∀ i, (f i).cleared = i.cleared)
    (name : String) (is : List Interface) :
    (updateFirst name f is).map Interface.cleared = is.map Interface.cleared := by
  induction is with
  | nil => rfl
  | cons i is ih =>
    unfold updateFirst
    split
    · rw [List.map_cons, List.map_cons, hf]
    · rw [List.map_cons, List.map_cons, ih]

theorem cleared_update {f : Interface → Interface} (hf : ∀ i, (f i).cleared = i.cleared)
    (c : Configuration) (name : String) : (c.update name f).cleared = c.cleared :=
  congrArg (Configuration.mk · {}) (map_cleared_updateFirst hf name c.interfaces)

theorem cleared_cleared (c : Configuration) : c.cleared.cleared = c.cleared := by
  simp only [cleared, List.map_map]
  rfl

/-- An edit changes only what a clear would wipe. -/
theorem Edited.cleared_eq {c c' : Configuration} {e : Edit} (h : Edited c e c') :
    c'.cleared = c.cleared := by
  cases h with
  | addRoute | removeRoute | disableRoute => rfl
  | @setAddress _ _ _ a =>
    exact cleared_update (f := (·.withAddress (some a))) (fun _ => rfl) c _
  | deleteAddress => exact cleared_update (f := (·.withAddress none)) (fun _ => rfl) c _
  | disableInterface => exact cleared_update (f := (·.withAdmin .down)) (fun _ => rfl) c _
  | enableInterface => exact cleared_update (f := (·.withAdmin .up)) (fun _ => rfl) c _

/-- Wiped copies that are equal have the same links, and the same hardware, place by place. -/
theorem map_eq_of_cleared_eq {α : Type} {f : Interface → α} (hf : ∀ i, f i.cleared = f i)
    {c d : Configuration} (h : c.cleared = d.cleared) :
    c.interfaces.map f = d.interfaces.map f := by
  have hc : ∀ is : List Interface, is.map f = (is.map Interface.cleared).map f := by
    intro is
    rw [List.map_map]
    exact List.map_congr_left fun i _ => (hf i).symm
  have hi : c.interfaces.map Interface.cleared = d.interfaces.map Interface.cleared :=
    congrArg Configuration.interfaces h
  rw [hc c.interfaces, hi, ← hc]

end Configuration

namespace Router

/-- The two copies differ only in what a clear would wipe, and in no interface is anything but its
configuration and its link different from what the router was built with. -/
structure Framed (interfaces : List Interface) (r : Router) : Prop where
  initial : r.initial = interfaces
  copies : r.staged.cleared = r.committed.cleared
  hardware : r.committed.interfaces.map Interface.hardware = interfaces.map Interface.hardware

theorem framed_new (name : String) (interfaces : List Interface) :
    (new name interfaces).Framed interfaces := ⟨rfl, rfl, rfl⟩

theorem framed_updateLinks {interfaces : List Interface} {r : Router} (h : r.Framed interfaces)
    (lookup : String → Option Neighbor) (selection : Option (List String)) :
    (r.updateLinks lookup selection).Framed interfaces := by
  have hmap : ∀ is : List Interface,
      (is.map (Interface.relinkSelected lookup selection)).map Interface.cleared =
        (is.map Interface.cleared).map (Interface.relinkSelected lookup selection) := by
    intro is
    rw [List.map_map, List.map_map]
    exact List.map_congr_left fun i _ => i.cleared_relinkSelected lookup selection
  have hcopies : r.staged.interfaces.map Interface.cleared =
      r.committed.interfaces.map Interface.cleared := congrArg Configuration.interfaces h.copies
  refine ⟨h.initial, congrArg (Configuration.mk · {}) ?_, ?_⟩
  · exact (hmap _).trans (hcopies ▸ (hmap _).symm)
  · rw [← h.hardware]
    change (r.committed.interfaces.map (Interface.relinkSelected lookup selection)).map _ = _
    rw [List.map_map]
    exact List.map_congr_left fun i _ => i.hardware_relinkSelected lookup selection

theorem Change.framed {interfaces : List Interface} {r r' : Router} (h : Change r r')
    (hr : r.Framed interfaces) : r'.Framed interfaces := by
  cases h with
  | none | leave => exact ⟨hr.initial, hr.copies, hr.hardware⟩
  | restage => exact ⟨hr.initial, rfl, hr.hardware⟩
  | edit _ he =>
    have hc := (Configuration.edit_eq_ok_iff.mp he).cleared_eq
    exact ⟨hr.initial, hc.trans hr.copies, hr.hardware⟩
  | clear => exact ⟨hr.initial, (Configuration.cleared_cleared _).trans hr.copies, hr.hardware⟩
  | commit =>
    have hmap := Configuration.map_eq_of_cleared_eq (f := Interface.hardware) (fun _ => rfl)
      hr.copies
    exact ⟨hr.initial, rfl, hmap.trans hr.hardware⟩
  | reset =>
    rw [← hr.initial]
    exact framed_new r.name r.initial
  | relink lookup selection => exact framed_updateLinks hr lookup selection

end Router

end RouterConsole
