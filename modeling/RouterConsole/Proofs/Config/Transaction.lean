import RouterConsole.Proofs.Config.Replay
import RouterConsole.Proofs.ValueText

/-!
# Transactions are all or nothing

A transaction either publishes what its body staged or leaves the router as it was, whatever the
body does in between: it may leave configuration mode, discard what was staged, swallow refusals
and let what it has seen decide what it does next. Nothing that it can ask for publishes anything
or breaks the agreement of the two copies (`Inside`), and this is enough to give back the router
from which the transaction started, even where the end of the transaction fails itself.
-/
namespace RouterConsole

/-- A body that works on a router step by step, without publishing. After each operation it sees
the router and the refusal, if there was one; it ends normally or with a failure. -/
inductive Body (ε α : Type) where
  | done (outcome : Except ε α)
  | perform (op : Operation) (quiet : op.publishes = false)
      (next : Router → Option RouterError → Body ε α)

/-- The router that a body leaves behind, and how the body ends. -/
def Body.run {ε α : Type} : Body ε α → Router → Router × Except ε α
  | .done outcome, r => (r, outcome)
  | .perform op _ next, r => (next (r.after op) (failure? (r.perform op))).run (r.after op)

namespace Router

variable {ε α : Type} {r s : Router}

/-- A router inside a transaction on `r`: whatever is staged, `r` is what was published. -/
structure Inside (r s : Router) : Prop where
  name : s.name = r.name
  initial : s.initial = r.initial
  committed : s.committed = r.committed
  synced : s.Synced

theorem inside_editing (r : Router) (c : Configuration) : Inside r (r.editing c) :=
  ⟨rfl, rfl, rfl, ⟨nofun, nofun⟩⟩

/-- Where nothing waits for a commit, the mode can be set at will. -/
theorem Synced.forceMode_of_clean (h : s.Synced) (hd : s.dirty = false) (mode : Mode) :
    s.forceMode mode = { s with mode := mode } := by
  cases hm : s.mode with
  | configuration => exact Router.forceMode_of_clean hm hd mode
  | operational =>
    have hr : s.restage = s := h.restage_of_clean hd
    cases mode with
    | operational => rw [forceMode_of_operational hm, ← hm]
    | configuration => simp only [forceMode, hm, reduceCtorEq, false_and, if_false, hr]

namespace Inside

theorem after (h : Inside r s) {op : Operation} (hop : op.publishes = false) :
    Inside r (s.after op) where
  name := (change_after s op).name_eq.trans h.name
  initial := (change_after s op).initial_eq.trans h.initial
  committed := (committed_after hop).trans h.committed
  synced := (change_after s op).synced h.synced

/-- A body stays inside. -/
theorem run (h : Inside r s) (body : Body ε α) : Inside r (body.run s).1 := by
  -- The next step depends on the router that it sees, so the induction is for all of them at once.
  induction body generalizing s with
  | done outcome => exact h
  | perform op quiet next ih => exact ih _ _ (h.after quiet)

theorem restage_eq (h : Inside r s) : s.restage = { r.restage with mode := s.mode } := by
  rw [restage, restage, h.name, h.initial, h.committed]

/-- A router in which nothing waits for a commit has nothing to drop. -/
theorem eq_of_clean (h : Inside r s) (hd : s.dirty = false) :
    s = { r.restage with mode := s.mode } := by
  rw [← h.restage_eq, h.synced.restage_of_clean hd]

/-- What was staged is dropped, also if the body has left configuration mode. -/
theorem rollBack_eq (h : Inside r s) :
    ∃ failure, s.rollBack = ({ r.restage with mode := s.mode }, failure) := by
  rw [rollBack]
  cases hm : s.mode with
  | configuration =>
    rw [discard_of_configuration hm, ← hm]
    exact ⟨_, congrArg (·, _) h.restage_eq⟩
  | operational =>
    rw [discard_of_operational hm, ← hm]
    exact ⟨_, congrArg (·, _) (h.eq_of_clean (h.synced.clean hm))⟩

/-- What was staged is committed only in configuration mode, and if there is anything. -/
theorem commitOrDiscard_eq (h : Inside r s) (hs : ¬(s.mode = .configuration ∧ s.dirty = true)) :
    ∃ e, s.commitOrDiscard = ({ r.restage with mode := s.mode }, some e) := by
  rw [commitOrDiscard]
  cases hm : s.mode with
  | configuration =>
    have hd : s.dirty = false := by simpa [hm] using hs
    rw [commit_of_clean hm hd, ← hm]
    simp only [discard_of_configuration hm]
    exact ⟨_, congrArg (·, _) h.restage_eq⟩
  | operational =>
    rw [commit_of_operational hm, ← hm]
    simp only [discard_of_operational hm]
    exact ⟨_, congrArg (·, _) (h.eq_of_clean (h.synced.clean hm))⟩

end Inside

/-- Where a transaction can start, nothing waits for a commit, and it starts inside. -/
theorem inside_of_begin (hs : r.Synced) {started : Router} (hb : r.beginTransaction = .ok started) :
    r.dirty = false ∧ Inside r started := by
  by_cases hp : r.mode = .configuration ∧ r.dirty = true
  · rw [beginTransaction_of_pending hp] at hb
    cases hb
  · rw [beginTransaction_of_free hp] at hb
    obtain rfl := Except.ok.inj hb
    exact ⟨hs.clean_of_free hp, inside_editing r _⟩

section Ends

variable {lift : RouterError → ε} {body : Body ε α} {started : Router}

/-- Once what was staged is dropped, giving the mode back gives the router back. -/
theorem forceMode_dropped (hs : r.Synced) (hd : r.dirty = false) (mode : Mode) :
    ({ r.restage with mode := mode } : Router).forceMode r.mode = r := by
  rw [(synced_restage r mode).forceMode_of_clean rfl]
  exact hs.restage_of_clean hd

/-- Once it is committed, giving the mode back changes nothing else. -/
theorem Inside.forceMode_committed (h : Inside r s) (hd : r.dirty = false)
    (hm : s.mode = .configuration) :
    ({ s with committed := s.staged, dirty := false } : Router).forceMode r.mode =
      { r with committed := s.staged, staged := s.staged } := by
  have hforce := Router.forceMode_of_clean (r := { s with committed := s.staged, dirty := false })
    hm rfl r.mode
  rw [hforce, h.name, h.initial, hd]

/-- The failure is the body's own, or that of the discard if the body left configuration mode. -/
theorem transaction_of_failed_body (hs : r.Synced) (hb : r.beginTransaction = .ok started) {e : ε}
    (h : (body.run started).2 = .error e) :
    ∃ e', r.transaction lift body.run = (r, .error e') := by
  obtain ⟨hd, hinside⟩ := inside_of_begin hs hb
  obtain ⟨failure, hend⟩ := (hinside.run body).rollBack_eq
  simp only [transaction, hb, h, hend, forceMode_dropped hs hd]
  cases failure with
  | none => exact ⟨e, rfl⟩
  | some e' => exact ⟨lift e', rfl⟩

theorem transaction_of_idle_body (hs : r.Synced) (hb : r.beginTransaction = .ok started) {a : α}
    (h : (body.run started).2 = .ok a)
    (hidle : ¬((body.run started).1.mode = .configuration ∧ (body.run started).1.dirty = true)) :
    ∃ e', r.transaction lift body.run = (r, .error e') := by
  obtain ⟨hd, hinside⟩ := inside_of_begin hs hb
  obtain ⟨e, hend⟩ := (hinside.run body).commitOrDiscard_eq hidle
  simp only [transaction, hb, h, hend, forceMode_dropped hs hd]
  exact ⟨lift e, rfl⟩

theorem transaction_of_body (hs : r.Synced) (hb : r.beginTransaction = .ok started) {a : α}
    (h : (body.run started).2 = .ok a) (hm : (body.run started).1.mode = .configuration)
    (hdirty : (body.run started).1.dirty = true) :
    r.transaction lift body.run =
      ({ r with
        committed := (body.run started).1.staged
        staged := (body.run started).1.staged }, .ok a) := by
  obtain ⟨hd, hinside⟩ := inside_of_begin hs hb
  simp only [transaction, hb, h, commitOrDiscard, commit_of_dirty hm hdirty,
    (hinside.run body).forceMode_committed hd hm, Option.map_none, Option.elim_none]

/-- A transaction fails and changes nothing, or its body ends as a transaction can be committed. -/
theorem transaction_cases (hs : r.Synced) (lift : RouterError → ε) (body : Body ε α) :
    (∃ e, r.transaction lift body.run = (r, .error e)) ∨
      ∃ started a, r.beginTransaction = .ok started ∧ (body.run started).2 = .ok a ∧
        (body.run started).1.mode = .configuration ∧ (body.run started).1.dirty = true := by
  cases hb : r.beginTransaction with
  | error e => exact .inl ⟨lift e, by rw [transaction, hb]⟩
  | ok started =>
    cases h : (body.run started).2 with
    | error e => exact .inl (transaction_of_failed_body hs hb h)
    | ok a =>
      by_cases hend : (body.run started).1.mode = .configuration ∧
          (body.run started).1.dirty = true
      · exact .inr ⟨started, a, rfl, h, hend⟩
      · exact .inl (transaction_of_idle_body hs hb h hend)

theorem transaction_eq_ok_iff (hs : r.Synced) {a : α} :
    (r.transaction lift body.run).2 = .ok a ↔ ∃ started, r.beginTransaction = .ok started ∧
      (body.run started).2 = .ok a ∧ (body.run started).1.mode = .configuration ∧
      (body.run started).1.dirty = true := by
  constructor
  · intro h
    rcases transaction_cases hs lift body with ⟨e, he⟩ | ⟨started, a', hb, hok, hm, hd⟩
    · rw [he] at h
      cases h
    · rw [transaction_of_body hs hb hok hm hd] at h
      obtain rfl := Except.ok.inj h
      exact ⟨started, hb, hok, hm, hd⟩
  · rintro ⟨started, hb, hok, hm, hd⟩
    rw [transaction_of_body hs hb hok hm hd]

theorem transaction_of_error_result (hs : r.Synced) {e : ε}
    (h : (r.transaction lift body.run).2 = .error e) :
    (r.transaction lift body.run).1 = r := by
  rcases transaction_cases hs lift body with ⟨e', he⟩ | ⟨started, a, hb, hok, hm, hd⟩
  · rw [he]
  · rw [transaction_of_body hs hb hok hm hd] at h
    cases h

end Ends

/-- A transaction on a reachable router, whatever its body does. It completes exactly if it starts
and the body ends normally, in configuration mode and with something staged; then what is staged
at the end of the body is committed, nothing waits for a commit, and the mode is the one from
before. Otherwise it fails, and the router is the one from before, with its mode, the mark of
waiting edits and both copies. It does not start if edits wait for a commit. -/
theorem transaction_all_or_nothing {name : String} {interfaces : List Interface}
    (h : ReachableFrom (.new name interfaces) r) (lift : RouterError → ε) (body : Body ε α) :
    let result := r.transaction lift body.run
    (∀ a, result.2 = .ok a ↔ ∃ started, r.beginTransaction = .ok started ∧
        (body.run started).2 = .ok a ∧ (body.run started).1.mode = .configuration ∧
        (body.run started).1.dirty = true) ∧
      (∀ a started, result.2 = .ok a → r.beginTransaction = .ok started →
        result.1.committed = (body.run started).1.staged ∧
          result.1.staged = result.1.committed ∧ result.1.dirty = false ∧
          result.1.mode = r.mode ∧ result.1.name = r.name ∧ result.1.initial = r.initial) ∧
      (∀ e, result.2 = .error e → result.1 = r) ∧
      (r.mode = .configuration ∧ r.dirty = true →
        result = (r, .error (lift .uncommittedChanges))) := by
  intro result
  have hs := h.synced
  refine ⟨fun a => transaction_eq_ok_iff hs, fun a started hok hb => ?_,
    fun e he => transaction_of_error_result hs he, transaction_of_pending⟩
  obtain ⟨started', hb', hbody, hm, hd⟩ := (transaction_eq_ok_iff hs).mp hok
  obtain rfl := Except.ok.inj (hb.symm.trans hb')
  have hresult : result = _ := transaction_of_body hs hb hbody hm hd
  rw [hresult]
  exact ⟨rfl, rfl, (inside_of_begin hs hb).1, rfl, rfl, rfl⟩

/-- A body that stages something, may not leave configuration mode, leaves it by force and ends as
if nothing had happened: neither a commit nor a discard is possible then, and nothing is left. -/
theorem transaction_all_or_nothing_of_left_mode :
    let start := Router.new "edge" [.fresh "eth0" ⟨.replicate 6 2⟩]
    let r := start.run [.setMode .configuration, .edit (.disableInterface "eth0"), .commit]
    let body : Body RouterError Unit :=
      .perform (.edit (.disableInterface "eth0")) rfl fun _ _ =>
        .perform (.setMode .operational) rfl fun _ refusal =>
          refusal.elim (.done (.ok ())) fun _ =>
            .perform (.forceMode .operational) rfl fun _ _ => .done (.ok ())
    (r.transaction id body.run).2 = .error (.wrongMode "[discard]") ∧
      (r.transaction id body.run).1 = r ∧ r.mode = .configuration ∧ r.dirty = false := by
  intro start r body
  have hr : ReachableFrom start r := ReachableFrom.refl.run _
  have hfailed : (r.transaction id body.run).2 = .error (.wrongMode "[discard]") :=
    eq_error_of_failure? (by decide)
  have hkept := (transaction_all_or_nothing hr id body).2.2.1 _ hfailed
  exact ⟨hfailed, hkept, by decide, by decide⟩

end Router

end RouterConsole
