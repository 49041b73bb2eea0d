import RouterConsole.Proofs.Router.Effects

/-!
# Edits that do not see each other

Two edits with different targets get the same answers in either order and leave the same behind,
except that two new routes stand in the order in which they came. An edit that adds no route can
therefore be moved past any number of edits with other targets.
-/
namespace RouterConsole

namespace Edit

/-- Writes at different targets commute up to the order of the routes. -/
theorem write_comm_upto_order {e f : Edit} (ht : e.target ≠ f.target) (c : Configuration) :
    (e.write (f.write c)).interfaces = (f.write (e.write c)).interfaces ∧
      (e.write (f.write c)).routes.entries.Perm (f.write (e.write c)).routes.entries := by
  obtain ⟨a, rfl⟩ | he := e.exists_addRoute_or
  · obtain ⟨b, rfl⟩ | hf := f.exists_addRoute_or
    · refine ⟨rfl, ?_⟩
      show (c.routes.entries ++ [b] ++ [a]).Perm (c.routes.entries ++ [a] ++ [b])
      rw [List.append_assoc, List.append_assoc]
      exact (List.Perm.swap a b []).append_left _
    · rw [write_comm ht.symm hf]
      exact ⟨rfl, .refl _⟩
  · rw [write_comm ht he]
    exact ⟨rfl, .refl _⟩

end Edit

namespace Router

/-- What an edit is answered with: nothing, or why it is refused. -/
def outcome (r : Router) (e : Edit) : Except RouterError Unit := (r.edit e).map fun _ => ()

theorem outcome_of_ok {r r' : Router} {e : Edit} (h : r.edit e = .ok r') :
    r.outcome e = .ok () := by
  rw [outcome, h]
  rfl

theorem edit_of_outcome_ok {r : Router} {e : Edit} (h : r.outcome e = .ok ()) :
    r.edit e = .ok { r with staged := e.write r.staged, dirty := true } := by
  unfold outcome at h
  cases hr : r.edit e with
  | error err =>
    rw [hr] at h
    cases h
  | ok r' =>
    obtain ⟨-, c, hc, rfl⟩ := edit_eq_ok_iff.mp hr
    rw [(Configuration.edit_eq_ok_iff.mp hc).eq_write]

theorem after_edit_of_ok {r : Router} {e : Edit} (h : r.outcome e = .ok ()) :
    r.after (.edit e) = { r with staged := e.write r.staged, dirty := true } :=
  after_of_ok (show r.perform (.edit e) = _ from edit_of_outcome_ok h)

theorem after_edit_of_error {r : Router} {e : Edit} {err : RouterError}
    (h : r.outcome e = .error err) : r.after (.edit e) = r := by
  unfold outcome at h
  cases hr : r.edit e with
  | error err' => exact after_of_error (show r.perform (.edit e) = _ from hr)
  | ok r' =>
    rw [hr] at h
    cases h

/-- The answer depends on the mode, the names of the interfaces and the target. -/
theorem outcome_congr {r s : Router} {e : Edit} (hm : r.mode = s.mode)
    (hn : r.staged.names = s.staged.names) (ht : r.staged.SameAt s.staged e.target) :
    r.outcome e = s.outcome e := by
  unfold outcome
  rcases s.mode.eq_or with hs | hs
  · rw [edit_of_operational hs, edit_of_operational (hm.trans hs)]
  · rw [edit_of_configuration hs, edit_of_configuration (hm.trans hs)]
    rcases r.staged.edited_or_refused e with ⟨c, hc⟩ | ⟨err, he⟩
    · rcases s.staged.edited_or_refused e with ⟨d, hd⟩ | ⟨err, he⟩
      · rw [hc.edit_eq, hd.edit_eq]
        rfl
      · have hr := (ht.symm.refused hn.symm he).edit_eq
        rw [hc.edit_eq] at hr
        cases hr
    · rw [he.edit_eq, (ht.refused hn he).edit_eq]
      rfl

/-- An edit does not notice another one that came before it, accepted or refused. -/
theorem outcome_after_edit {e f : Edit} (ht : e.target ≠ f.target) (r : Router) :
    (r.after (.edit f)).outcome e = r.outcome e := by
  cases hf : r.outcome f with
  | error err => rw [after_edit_of_error hf]
  | ok _ =>
    rw [after_edit_of_ok hf]
    exact outcome_congr rfl (f.names_write r.staged) (f.sameAt_write ht.symm r.staged).symm

/-- If both edits are accepted, they write in the order in which they come; otherwise there is
nothing to be ordered. -/
theorem after_both {e f : Edit} (ht : e.target ≠ f.target) (r : Router) :
    ((r.after (.edit f)).after (.edit e) =
          { r with staged := e.write (f.write r.staged), dirty := true } ∧
        (r.after (.edit e)).after (.edit f) =
          { r with staged := f.write (e.write r.staged), dirty := true }) ∨
      (r.after (.edit f)).after (.edit e) = (r.after (.edit e)).after (.edit f) := by
  have he' := outcome_after_edit ht r
  have hf' := outcome_after_edit ht.symm r
  cases he : r.outcome e with
  | error err =>
    rw [after_edit_of_error (he'.trans he), after_edit_of_error he]
    exact .inr rfl
  | ok _ =>
    cases hf : r.outcome f with
    | error err =>
      rw [after_edit_of_error (hf'.trans hf), after_edit_of_error hf]
      exact .inr rfl
    | ok _ =>
      rw [after_edit_of_ok (he'.trans he), after_edit_of_ok (hf'.trans hf), after_edit_of_ok hf,
        after_edit_of_ok he]
      exact .inl ⟨rfl, rfl⟩

/-- An edit that adds no route may come before or after one with another target. -/
theorem after_edit_comm {e f : Edit} (ht : e.target ≠ f.target)
    (hadd : ∀ route, e ≠ .addRoute route) (r : Router) :
    (r.after (.edit f)).after (.edit e) = (r.after (.edit e)).after (.edit f) := by
  rcases r.after_both ht with ⟨hfe, hef⟩ | h
  · rw [hfe, hef, Edit.write_comm ht hadd]
  · exact h

/-- Independent edits commute. In any router, two edits with different targets get the same
answers in either order, whether they are accepted or refused, and lead to the same router but for
the order of the staged routes: the same staged interfaces, the same routes with the same disabled
flags, and everything else equal, whether anything waits for a commit included. -/
theorem independent_edits_commute (r : Router) {e f : Edit} (ht : e.target ≠ f.target) :
    let ef := (r.after (.edit e)).after (.edit f)
    let fe := (r.after (.edit f)).after (.edit e)
    (r.after (.edit f)).outcome e = r.outcome e ∧
      (r.after (.edit e)).outcome f = r.outcome f ∧
      fe.staged.interfaces = ef.staged.interfaces ∧
      fe.staged.routes.entries.Perm ef.staged.routes.entries ∧
      fe.dirty = ef.dirty ∧ fe = { ef with staged := fe.staged } := by
  intro ef fe
  refine ⟨outcome_after_edit ht r, outcome_after_edit ht.symm r, ?_⟩
  have hboth : (fe = _ ∧ ef = _) ∨ fe = ef := r.after_both ht
  obtain ⟨hfe, hef⟩ | h := hboth
  · obtain ⟨hinterfaces, hroutes⟩ := Edit.write_comm_upto_order ht r.staged
    rw [hfe, hef]
    exact ⟨hinterfaces, hroutes, rfl, rfl⟩
  · rw [h]
    exact ⟨rfl, .refl _, rfl, rfl⟩

/-- Two new routes stand in the order in which they came, and an address that is refused is
refused before and after its interface is disabled. -/
theorem independent_edits_commute_of_two_routes :
    let r := (new "edge" [.fresh "eth0" ⟨.replicate 6 2⟩]).after (.setMode .configuration)
    let a : StaticRoute :=
      { destination := ⟨.ofNat 0x0A010000, 16, by decide⟩, target := .interface "eth0" }
    let b : StaticRoute := { a with distance := ⟨5, by decide, by decide⟩, disabled := true }
    let ab := (r.after (.edit (.addRoute a))).after (.edit (.addRoute b))
    let ba := (r.after (.edit (.addRoute b))).after (.edit (.addRoute a))
    let set : Edit := .setAddress "eth0" ⟨.ofNat 0x0A000000, 30⟩
    ab.staged.routes.entries = [a, b] ∧ ba.staged.routes.entries = [b, a] ∧
      ba.staged.routes.entries.Perm ab.staged.routes.entries ∧ ba.dirty = ab.dirty ∧
      (r.outcome set).toOption = none ∧
      (r.after (.edit (.disableInterface "eth0"))).outcome set = r.outcome set := by
  intro r a b ab ba set
  have hroutes : (Edit.addRoute a).target ≠ (Edit.addRoute b).target := by decide
  have hsettings : set.target ≠ (Edit.disableInterface "eth0").target := by decide
  obtain ⟨-, -, -, hperm, hdirty, -⟩ := r.independent_edits_commute hroutes
  obtain ⟨hset, -⟩ := r.independent_edits_commute hsettings
  exact ⟨by decide, by decide, hperm, hdirty, by decide, hset⟩

/-- The router that edits leave behind, one after the other, each accepted or refused. -/
def afterEdits (r : Router) (es : List Edit) : Router := r.run (es.map .edit)

/-- What edits are answered with, one after the other. -/
def outcomes (r : Router) : List Edit → List (Except RouterError Unit)
  | [] => []
  | e :: es => r.outcome e :: (r.after (.edit e)).outcomes es

theorem afterEdits_cons (r : Router) (e : Edit) (es : List Edit) :
    r.afterEdits (e :: es) = (r.after (.edit e)).afterEdits es := rfl

/-- An edit that adds no route may come before or after any number of edits with other targets:
the same router and, for it and for each of them, the same answer. -/
theorem afterEdits_comm {e : Edit} (hadd : ∀ route, e ≠ .addRoute route) {fs : List Edit}
    (ht : ∀ f ∈ fs, f.target ≠ e.target) (r : Router) :
    (r.afterEdits fs).after (.edit e) = (r.after (.edit e)).afterEdits fs ∧
      (r.afterEdits fs).outcome e = r.outcome e ∧
      (r.after (.edit e)).outcomes fs = r.outcomes fs := by
  induction fs generalizing r with
  | nil => exact ⟨rfl, rfl, rfl⟩
  | cons f fs ih =>
    have hf : f.target ≠ e.target := ht f List.mem_cons_self
    obtain ⟨hafter, houtcome, houtcomes⟩ :=
      ih (fun g hg => ht g (List.mem_cons_of_mem f hg)) (r.after (.edit f))
    have hcomm := after_edit_comm hf.symm hadd r
    refine ⟨?_, ?_, ?_⟩
    · rw [afterEdits_cons, afterEdits_cons, hafter, hcomm]
    · rw [afterEdits_cons, houtcome, outcome_after_edit hf.symm]
    · rw [outcomes, outcomes, outcome_after_edit hf, ← hcomm, houtcomes]

end Router

end RouterConsole
