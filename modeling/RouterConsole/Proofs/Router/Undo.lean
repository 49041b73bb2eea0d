import RouterConsole.Proofs.Router.Independence

/-!
# Edits that undo each other

Removing a new route, enabling what was disabled, disabling what was enabled and deleting an address
that was set where there was none undo what came before, exactly, however many edits with other
targets lie between. Undone at once, an edit leaves nothing behind but that something waits for a
commit; and as the edit that undoes adds no route, it may be moved back to the edit that it undoes.
-/
namespace RouterConsole

open IPv4 (InterfaceAddress)

/-- An edit of a configuration, and the edit that takes it back. An address that was set may be
deleted by its value or as whatever the interface has. -/
inductive Edit.UndoneBy (c : Configuration) : Edit → Edit → Prop
  | route (route : StaticRoute) : UndoneBy c (.addRoute route) (.removeRoute route)
  | disabling (name : String) : UndoneBy c (.disableInterface name) (.enableInterface name)
  | enabling (name : String) : UndoneBy c (.enableInterface name) (.disableInterface name)
  | address {name : String} {a : InterfaceAddress} {a? : Option InterfaceAddress} :
      c.address? name = none → (∀ b, a? = some b → b = a) →
      UndoneBy c (.setAddress name a) (.deleteAddress name a?)

theorem RoutingTable.remove?_add {t : RoutingTable} {r : StaticRoute} (h : r.key ∉ t.keys) :
    (t.add r).remove? r = some t := by
  have hmem : r.key ∈ (t.add r).keys := by
    rw [keys_add]
    exact List.mem_append_right _ List.mem_cons_self
  have hother : ∀ e ∈ t.entries, ¬e.same r = true := fun e he hs =>
    h (List.mem_map.mpr ⟨e, he, StaticRoute.same_iff.mp hs⟩)
  have hself : r.same r = true := StaticRoute.same_iff.mpr rfl
  rw [remove?, if_pos (contains_iff.mpr hmem), add, List.eraseP_append_right _ hother,
    List.eraseP_cons, hself]
  exact congrArg (fun es => some (mk es)) (List.append_nil t.entries)

namespace Configuration

theorem updateFirst_updateFirst {f g : Interface → Interface} (hg : ∀ i, (g i).name = i.name)
    (name : String) (is : List Interface) :
    updateFirst name f (updateFirst name g is) = updateFirst name (fun i => f (g i)) is := by
  induction is with
  | nil => rfl
  | cons i is ih =>
    by_cases hi : i.name = name
    · rw [updateFirst_cons_self hi, updateFirst_cons_self hi,
        updateFirst_cons_self ((hg i).trans hi)]
    · rw [updateFirst_cons_of_ne hi, updateFirst_cons_of_ne hi, updateFirst_cons_of_ne hi, ih]

/-- A change that is taken back where it was made leaves nothing behind. -/
theorem update_update_of_fixed {c : Configuration} {name : String} {i : Interface}
    {f g : Interface → Interface} (hg : ∀ i, (g i).name = i.name)
    (hi : c.interface? name = some i) (hfg : f (g i) = i) :
    (c.update name g).update name f = c := by
  have htwice : (c.update name g).update name f = c.update name fun i => f (g i) :=
    congrArg (Configuration.mk · c.routes) (updateFirst_updateFirst hg name c.interfaces)
  rw [htwice, update_of_fixed hi hfg]

theorem update_admin_back {c : Configuration} {name : String} {a : Option InterfaceAddress}
    {s : AdminState} (h : c.settings name = some (a, s)) (s' : AdminState) :
    (c.update name (·.withAdmin s')).update name (·.withAdmin s) = c := by
  obtain ⟨i, hi, -, hs⟩ := settings_eq_some_iff.mp h
  apply update_update_of_fixed (f := (·.withAdmin s)) (g := (·.withAdmin s')) (fun _ => rfl) hi
  subst hs
  rfl

/-- An edit that is taken back at once leaves nothing behind. -/
theorem Edited.undone {c c' : Configuration} {e u : Edit} (h : Edited c e c')
    (hu : Edit.UndoneBy c e u) : Edited c' u c := by
  cases hu with
  | route route =>
    cases h with
    | addRoute _ hk => exact .removeRoute (RoutingTable.remove?_add hk)
  | disabling name =>
    cases h with
    | disableInterface hs =>
      have hback := Edited.enableInterface (settings_updated_admin hs .down)
      rwa [update_admin_back hs] at hback
  | enabling name =>
    cases h with
    | enableInterface hs =>
      have hback := Edited.disableInterface (settings_updated_admin hs .up)
      rwa [update_admin_back hs] at hback
  | @address name a a? hnone ha? =>
    cases h with
    | @setAddress _ old admin _ hs _ _ =>
      obtain rfl : old = none := (address?_of_settings hs).symm.trans hnone
      have hback := Edited.deleteAddress (settings_updated_address hs (some a)) ha?
      obtain ⟨i, hi, ha, -⟩ := settings_eq_some_iff.mp hs
      have hfixed : (i.withAddress (some a)).withAddress none = i := by
        obtain ⟨_, _, _, _, _, _, _⟩ := i
        subst ha
        rfl
      rwa [update_update_of_fixed (f := (·.withAddress none)) (g := (·.withAddress (some a)))
        (fun _ => rfl) hi hfixed] at hback

end Configuration

namespace Edit.UndoneBy

variable {c : Configuration} {e u : Edit}

theorem target_eq (h : UndoneBy c e u) : u.target = e.target := by
  cases h <;> rfl

theorem ne_addRoute (h : UndoneBy c e u) (route : StaticRoute) : u ≠ .addRoute route := by
  cases h <;> nofun

end Edit.UndoneBy

namespace Router

theorem edit_undone {r r' : Router} {e u : Edit} (h : r.edit e = .ok r')
    (hu : Edit.UndoneBy r.staged e u) : r'.edit u = .ok { r with dirty := true } := by
  obtain ⟨hm, c, hc, rfl⟩ := edit_eq_ok_iff.mp h
  have hback := ((Configuration.edit_eq_ok_iff.mp hc).undone hu).edit_eq
  exact edit_eq_ok_iff.mpr ⟨hm, r.staged, hback, rfl⟩

/-- That something waits for a commit makes no difference to edits, and they do not take it away. -/
theorem afterEdits_dirty (r : Router) (es : List Edit) :
    { r with dirty := true }.afterEdits es = { r.afterEdits es with dirty := true } ∧
      { r with dirty := true }.outcomes es = r.outcomes es := by
  induction es generalizing r with
  | nil => exact ⟨rfl, rfl⟩
  | cons e es ih =>
    have hsame : { r with dirty := true }.outcome e = r.outcome e := rfl
    have hafter : { r with dirty := true }.after (.edit e) =
        { r.after (.edit e) with dirty := true } := by
      cases he : r.outcome e with
      | error err => rw [after_edit_of_error he, after_edit_of_error (hsame.trans he)]
      | ok _ => rw [after_edit_of_ok he, after_edit_of_ok (hsame.trans he)]
    obtain ⟨hrest, houtcomes⟩ := ih (r.after (.edit e))
    rw [afterEdits_cons, afterEdits_cons, outcomes, outcomes, hsame, hafter]
    exact ⟨hrest, congrArg _ houtcomes⟩

/-- Deleting undoes setting. In any router, after an edit that is accepted and any edits with other
targets, accepted or refused, the edit that undoes the first one is accepted: a new route can be
removed, a disabled interface enabled, an enabled one disabled, and an address deleted that was set
where there was none. What is left is exactly the router that the other edits alone leave behind,
with the same staged interfaces and the same routes in the same order with the same flags, but for
waiting for a commit. And each edit between got the answer that it gets alone. -/
theorem undoing_restores {r r' : Router} {e u : Edit} (h : r.edit e = .ok r')
    (hu : Edit.UndoneBy r.staged e u) {fs : List Edit} (hfs : ∀ f ∈ fs, f.target ≠ e.target) :
    (r'.afterEdits fs).edit u = .ok { r.afterEdits fs with dirty := true } ∧
      r'.outcomes fs = r.outcomes fs := by
  have hundone := edit_undone h hu
  have hother : ∀ f ∈ fs, f.target ≠ u.target := fun f hf => hu.target_eq ▸ hfs f hf
  obtain ⟨hafter, houtcome, houtcomes⟩ := r'.afterEdits_comm hu.ne_addRoute hother
  obtain ⟨hdirty, hdirty'⟩ := r.afterEdits_dirty fs
  have hback : r'.after (.edit u) = { r with dirty := true } :=
    after_of_ok (show r'.perform (.edit u) = _ from hundone)
  rw [hback] at hafter houtcomes
  constructor
  · have hok := houtcome.trans (outcome_of_ok hundone)
    rw [edit_of_outcome_ok hok, ← after_edit_of_ok hok, hafter, hdirty]
  · rw [← houtcomes, hdirty']

/-- Between a new route and its removal, another one is disabled, a third added and added again in
vain, and the interface of the route gets an address. -/
theorem undoing_restores_around_other_routes :
    let old : StaticRoute :=
      { destination := ⟨.ofNat 0x0A010000, 16, by decide⟩, target := .interface "eth0" }
    let new : StaticRoute := { old with distance := ⟨5, by decide, by decide⟩ }
    let third : StaticRoute := { old with distance := ⟨7, by decide, by decide⟩ }
    let r := (Router.new "edge" [.fresh "eth0" ⟨.replicate 6 2⟩]).run
      [.setMode .configuration, .edit (.addRoute old), .commit]
    let others : List Edit := [.addRoute third, .disableRoute old, .addRoute third,
      .setAddress "eth0" ⟨.ofNat 0x0A000001, 30⟩]
    let r' := r.after (.edit (.addRoute new))
    (r'.afterEdits others).staged.routes.entries =
        [{ old with disabled := true }, new, third] ∧
      (r'.afterEdits others).edit (.removeRoute new) =
        .ok { r.afterEdits others with dirty := true } ∧
      (r.afterEdits others).staged.routes.entries = [{ old with disabled := true }, third] ∧
      r'.outcomes others = r.outcomes others := by
  intro old new third r others r'
  have hadd : r.edit (.addRoute new) = .ok r' := by rfl
  have hothers : ∀ f ∈ others, f.target ≠ (Edit.addRoute new).target := by decide
  obtain ⟨hremoved, houtcomes⟩ := undoing_restores hadd (.route new) hothers
  exact ⟨by decide, hremoved, by decide, houtcomes⟩

end Router

end RouterConsole
