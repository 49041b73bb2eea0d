import RouterConsole.Router.Edit

/-!
# Operations of a router

Everything that can be asked of a router apart from loading a text, and what it does to the
router. A refused operation leaves the router as it was. The relation `Change` lists once what an
operation can do to the mode, to the two copies of the configuration and to `dirty`; an invariant
is proved by one case for each of its constructors.
-/
namespace RouterConsole

theorem Mode.eq_or (m : Mode) : m = .operational ∨ m = .configuration := by
  cases m <;> simp

/-- A request to the router. -/
inductive Operation where
  | setMode (mode : Mode)
  | forceMode (mode : Mode)
  | edit (change : Edit)
  | clear
  | commit
  | discard
  | save
  | reset
  | updateLinks (lookup : String → Option Neighbor) (selection : Option (List String))

/-- Whether an operation is of the kinds that can change the committed copy. -/
def Operation.publishes : Operation → Bool
  | .commit | .reset | .updateLinks _ _ => true
  | .setMode _ | .forceMode _ | .edit _ | .clear | .discard | .save => false

namespace Router

/-- The router after an operation, or why the operation is refused. -/
def perform (r : Router) : Operation → Except RouterError Router
  | .setMode mode => r.setMode mode
  | .forceMode mode => .ok (r.forceMode mode)
  | .edit change => r.edit change
  | .clear => r.clear
  | .commit => r.commit
  | .discard => r.discard
  | .save => r.save
  | .reset => .ok r.reset
  | .updateLinks lookup selection => .ok (r.updateLinks lookup selection)

/-- The router that an operation leaves behind, whether it succeeds or is refused. -/
def after (r : Router) (op : Operation) : Router :=
  match r.perform op with
  | .ok r' => r'
  | .error _ => r

/-- The router that operations leave behind, one after the other. -/
def run (r : Router) (ops : List Operation) : Router := ops.foldl after r

@[simp] theorem run_nil (r : Router) : r.run [] = r := rfl

@[simp] theorem run_cons (r : Router) (op : Operation) (ops : List Operation) :
    r.run (op :: ops) = (r.after op).run ops := rfl

theorem run_append (r : Router) (ops ops' : List Operation) :
    r.run (ops ++ ops') = (r.run ops).run ops' := List.foldl_append

theorem after_of_ok {r r' : Router} {op : Operation} (h : r.perform op = .ok r') :
    r.after op = r' := by simp only [after, h]

theorem after_of_error {r : Router} {op : Operation} {e : RouterError}
    (h : r.perform op = .error e) : r.after op = r := by simp only [after, h]

theorem setMode_self {r : Router} {mode : Mode} (h : r.mode = mode) : r.setMode mode = .ok r :=
  if_pos h.symm

theorem setMode_configuration {r : Router} (h : r.mode = .operational) :
    r.setMode .configuration = .ok { r.restage with mode := .configuration } := by
  simp only [setMode, h, reduceCtorEq, if_false]

theorem setMode_operational {r : Router} (h : r.mode = .configuration) :
    r.setMode .operational =
      if r.dirty then .error .uncommittedChanges else .ok { r with mode := .operational } := by
  simp only [setMode, h, reduceCtorEq, if_false]

theorem forceMode_of_operational {r : Router} (h : r.mode = .operational) :
    r.forceMode .operational = r := by
  simp only [forceMode, h, reduceCtorEq, false_and, if_false, if_true]

/-- An accepted edit happens in configuration mode, changes the staged copy and nothing else, and
makes the router dirty. -/
theorem edit_of_configuration {r : Router} (h : r.mode = .configuration) (e : Edit) :
    r.edit e = (r.staged.edit e).map fun c => { r with staged := c, dirty := true } := by
  simp only [edit, requireConfiguration, h, if_true]
  cases r.staged.edit e <;> rfl

theorem edit_of_operational {r : Router} (h : r.mode = .operational) (e : Edit) :
    r.edit e = .error (.wrongMode e.command) := by
  simp only [edit, requireConfiguration, h, reduceCtorEq, if_false]
  rfl

/-- What is behind an edit that succeeds. -/
theorem edit_eq_ok_iff {r r' : Router} {e : Edit} :
    r.edit e = .ok r' ↔ r.mode = .configuration ∧
      ∃ c, r.staged.edit e = .ok c ∧ r' = { r with staged := c, dirty := true } := by
  rcases r.mode.eq_or with hm | hm
  · rw [edit_of_operational hm, hm]
    exact ⟨nofun, fun h => nomatch h.1⟩
  · rw [edit_of_configuration hm]
    cases r.staged.edit e with
    | error err => exact ⟨nofun, fun ⟨_, _, hc, _⟩ => nomatch hc⟩
    | ok c =>
      constructor
      · intro h
        exact ⟨hm, c, rfl, (Except.ok.inj h).symm⟩
      · intro h
        obtain ⟨-, d, hd, rfl⟩ := h
        obtain rfl := Except.ok.inj hd
        rfl

theorem commit_of_dirty {r : Router} (h : r.mode = .configuration) (hd : r.dirty = true) :
    r.commit = .ok { r with committed := r.staged, dirty := false } := by
  simp only [commit, requireConfiguration, h, hd, if_true]
  rfl

theorem commit_of_clean {r : Router} (h : r.mode = .configuration) (hd : r.dirty = false) :
    r.commit = .error .nothingToCommit := by
  simp only [commit, requireConfiguration, h, hd, if_true, Bool.false_eq_true, if_false]
  rfl

theorem commit_of_operational {r : Router} (h : r.mode = .operational) :
    r.commit = .error (.wrongMode "[commit]") := by
  simp only [commit, requireConfiguration, h, reduceCtorEq, if_false]
  rfl

theorem discard_of_configuration {r : Router} (h : r.mode = .configuration) :
    r.discard = .ok r.restage := by
  simp only [discard, requireConfiguration, h, if_true]
  rfl

theorem discard_of_operational {r : Router} (h : r.mode = .operational) :
    r.discard = .error (.wrongMode "[discard]") := by
  simp only [discard, requireConfiguration, h, reduceCtorEq, if_false]
  rfl

theorem clear_of_configuration {r : Router} (h : r.mode = .configuration) :
    r.clear = .ok { r with staged := r.staged.cleared, dirty := true } := if_pos h

theorem clear_of_operational {r : Router} (h : r.mode = .operational) :
    r.clear = .error .clearOutsideConfiguration := by
  simp only [clear, h, reduceCtorEq, if_false]

theorem committed_setMode {r r' : Router} {mode : Mode} (h : r.setMode mode = .ok r') :
    r'.committed = r.committed := by
  unfold setMode at h
  split at h
  · rw [← Except.ok.inj h]
  · split at h
    · split at h
      · cases h
      · rw [← Except.ok.inj h]
    · rw [← Except.ok.inj h]
      rfl

@[simp] theorem committed_forceMode (r : Router) (mode : Mode) :
    (r.forceMode mode).committed = r.committed := by
  unfold forceMode
  dsimp only
  repeat' split
  all_goals rfl

/-- An operation that does not publish leaves the committed copy alone. -/
theorem committed_of_perform {r r' : Router} {op : Operation} (h : r.perform op = .ok r')
    (hop : op.publishes = false) : r'.committed = r.committed := by
  cases op with
  | commit | reset | updateLinks => cases hop
  | save => cases h
  | setMode mode => exact committed_setMode h
  | forceMode mode =>
    obtain rfl := Except.ok.inj h
    exact committed_forceMode r mode
  | edit e =>
    obtain ⟨-, c, -, rfl⟩ := edit_eq_ok_iff.mp h
    rfl
  | clear =>
    rcases r.mode.eq_or with hm | hm
    · rw [perform, clear_of_operational hm] at h
      cases h
    · rw [perform, clear_of_configuration hm] at h
      obtain rfl := Except.ok.inj h
      rfl
  | discard =>
    rcases r.mode.eq_or with hm | hm
    · rw [perform, discard_of_operational hm] at h
      cases h
    · rw [perform, discard_of_configuration hm] at h
      obtain rfl := Except.ok.inj h
      rfl

theorem committed_after {r : Router} {op : Operation} (hop : op.publishes = false) :
    (r.after op).committed = r.committed := by
  cases h : r.perform op with
  | error e => rw [after_of_error h]
  | ok r' =>
    rw [after_of_ok h]
    exact committed_of_perform h hop

/-- What one operation can do to a router. -/
inductive Change (r : Router) : Router → Prop
  | none : Change r r
  | leave : r.dirty = false → Change r { r with mode := .operational }
  | restage (mode : Mode) : Change r { r.restage with mode := mode }
  | edit {e : Edit} {c : Configuration} : r.mode = .configuration → r.staged.edit e = .ok c →
      Change r { r with staged := c, dirty := true }
  | clear : r.mode = .configuration →
      Change r { r with staged := r.staged.cleared, dirty := true }
  | commit : r.mode = .configuration → Change r { r with committed := r.staged, dirty := false }
  | reset : Change r r.reset
  | relink (lookup : String → Option Neighbor) (selection : Option (List String)) :
      Change r (r.updateLinks lookup selection)

/-- A router keeps its name. -/
theorem Change.name_eq {r r' : Router} (h : Change r r') : r'.name = r.name := by
  cases h <;> rfl

/-- A reset goes back to the same interfaces as before. -/
theorem Change.initial_eq {r r' : Router} (h : Change r r') : r'.initial = r.initial := by
  cases h <;> rfl

theorem change_setMode {r r' : Router} {mode : Mode} (h : r.setMode mode = .ok r') :
    Change r r' := by
  by_cases hm : r.mode = mode
  · rw [setMode_self hm] at h
    obtain rfl := Except.ok.inj h
    exact .none
  · cases hr : r.mode with
    | operational =>
      have hc : mode = .configuration := by cases mode <;> simp_all
      subst hc
      rw [setMode_configuration hr] at h
      obtain rfl := Except.ok.inj h
      exact .restage .configuration
    | configuration =>
      have ho : mode = .operational := by cases mode <;> simp_all
      subst ho
      rw [setMode_operational hr] at h
      by_cases hd : r.dirty = true
      · rw [if_pos hd] at h
        cases h
      · rw [if_neg hd] at h
        obtain rfl := Except.ok.inj h
        exact .leave (Bool.eq_false_iff.mpr hd)

theorem change_forceMode (r : Router) (mode : Mode) : Change r (r.forceMode mode) := by
  unfold forceMode
  by_cases hp : r.mode = .configuration ∧ r.dirty = true
  · have hm : r.restage.mode = .configuration := hp.1
    simp only [if_pos hp, hm]
    cases mode with
    | configuration => exact .restage r.mode
    | operational => exact .restage .operational
  · simp only [if_neg hp]
    by_cases hm : mode = r.mode
    · rw [if_pos hm]
      exact .none
    · rw [if_neg hm]
      cases hr : r.mode with
      | operational => exact .restage .configuration
      | configuration =>
        have hd : r.dirty = false := by simpa [hr] using hp
        exact .leave hd

/-- An operation that succeeds does one of the things that `Change` lists. -/
theorem change_perform {r r' : Router} {op : Operation} (h : r.perform op = .ok r') :
    Change r r' := by
  cases op with
  | setMode mode => exact change_setMode h
  | forceMode mode =>
    obtain rfl := Except.ok.inj h
    exact change_forceMode r mode
  | edit change =>
    obtain ⟨hm, c, hc, rfl⟩ := edit_eq_ok_iff.mp h
    exact .edit hm hc
  | clear =>
    cases hm : r.mode with
    | operational =>
      rw [perform, clear_of_operational hm] at h
      cases h
    | configuration =>
      rw [perform, clear_of_configuration hm] at h
      obtain rfl := Except.ok.inj h
      exact .clear hm
  | commit =>
    cases hm : r.mode with
    | operational =>
      rw [perform, commit_of_operational hm] at h
      cases h
    | configuration =>
      cases hd : r.dirty with
      | false =>
        rw [perform, commit_of_clean hm hd] at h
        cases h
      | true =>
        rw [perform, commit_of_dirty hm hd] at h
        obtain rfl := Except.ok.inj h
        exact .commit hm
  | discard =>
    cases hm : r.mode with
    | operational =>
      rw [perform, discard_of_operational hm] at h
      cases h
    | configuration =>
      rw [perform, discard_of_configuration hm] at h
      obtain rfl := Except.ok.inj h
      exact .restage r.mode
  | save => cases h
  | reset =>
    obtain rfl := Except.ok.inj h
    exact .reset
  | updateLinks lookup selection =>
    obtain rfl := Except.ok.inj h
    exact .relink lookup selection

theorem change_after (r : Router) (op : Operation) : Change r (r.after op) := by
  cases h : r.perform op with
  | error e => rw [after_of_error h]; exact .none
  | ok r' => rw [after_of_ok h]; exact change_perform h

end Router

end RouterConsole
