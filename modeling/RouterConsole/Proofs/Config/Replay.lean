import RouterConsole.Proofs.Config.Reachable
import RouterConsole.Proofs.Router.Alike

/-!
# Replaying directives

A load replays the edits of its directives on a wiped configuration: each is applied, or skipped as
a duplicate, or stops the load. `Replays` is the relation between the edits, what is applied, what
is skipped and the configuration at the end; it does not mention a router. The lemmas on `load` at
the end say what a load does to a router without pending edits, in terms of `parse` and `Replays`
alone.
-/
namespace RouterConsole

namespace Router

/-- The router inside a transaction, with the given staged copy. -/
def editing (r : Router) (c : Configuration) : Router :=
  { r with mode := .configuration, staged := c, dirty := true }

theorem edit_editing (r : Router) (c : Configuration) (e : Edit) :
    (r.editing c).edit e = (c.edit e).map r.editing :=
  edit_of_configuration rfl e

theorem edit_editing_of_edited {c c' : Configuration} {e : Edit} (h : Configuration.Edited c e c')
    (r : Router) : (r.editing c).edit e = .ok (r.editing c') := by
  rw [edit_editing, h.edit_eq]
  rfl

theorem edit_editing_of_refused {c : Configuration} {e : Edit} {err : RouterError}
    (h : Configuration.Refused c e err) (r : Router) : (r.editing c).edit e = .error err := by
  rw [edit_editing, h.edit_eq]
  rfl

theorem interfaceNames_editing (r : Router) (c : Configuration) :
    (r.editing c).interfaceNames = c.names := rfl

theorem beginTransaction_of_pending {r : Router} (h : r.mode = .configuration ∧ r.dirty = true) :
    r.beginTransaction = .error .uncommittedChanges := by
  rw [beginTransaction, if_pos h]
  rfl

/-- A transaction wipes the copy of the configuration that the router shows. -/
theorem beginTransaction_of_free {r : Router} (h : ¬(r.mode = .configuration ∧ r.dirty = true)) :
    r.beginTransaction = .ok (r.editing r.visible.cleared) := by
  rw [beginTransaction, if_neg h, visible]
  cases hm : r.mode with
  | operational =>
    rw [setMode_configuration hm]
    rfl
  | configuration =>
    rw [setMode_self hm]
    change r.clear = _
    rw [clear_of_configuration hm, editing, hm, if_pos rfl]

theorem Synced.clean_of_free {r : Router} (hs : r.Synced)
    (h : ¬(r.mode = .configuration ∧ r.dirty = true)) : r.dirty = false := by
  rcases r.mode.eq_or with hm | hm
  · exact hs.clean hm
  · exact Bool.eq_false_iff.mpr fun hd => h ⟨hm, hd⟩

theorem Synced.restage_of_clean {r : Router} (h : r.Synced) (hd : r.dirty = false) :
    r.restage = r := by
  have he := h.equal hd
  obtain ⟨name, initial, committed, staged, mode, dirty⟩ := r
  simp only at he hd
  rw [restage, he, hd]

theorem visible_of_clean {r : Router} (hs : r.Synced) (hd : r.dirty = false) :
    r.visible = r.committed := by
  rw [visible, hs.equal hd, ite_self]

theorem beginTransaction_of_clean {r : Router} (hs : r.Synced) (hd : r.dirty = false) :
    r.beginTransaction = .ok (r.editing r.committed.cleared) := by
  have hp : ¬(r.mode = .configuration ∧ r.dirty = true) := by simp [hd]
  rw [beginTransaction_of_free hp, visible_of_clean hs hd]

theorem commitOrDiscard_editing (r : Router) (c : Configuration) :
    (r.editing c).commitOrDiscard =
      ({ r with mode := .configuration, committed := c, staged := c, dirty := false }, none) := by
  rw [commitOrDiscard, commit_of_dirty (r := r.editing c) rfl rfl]
  rfl

theorem rollBack_editing (r : Router) (c : Configuration) :
    (r.editing c).rollBack =
      ({ r with mode := .configuration, staged := r.committed, dirty := false }, none) := by
  rw [rollBack, discard_of_configuration (r := r.editing c) rfl]
  rfl

theorem forceMode_of_clean {r : Router} (hm : r.mode = .configuration) (hd : r.dirty = false)
    (mode : Mode) : r.forceMode mode = { r with mode := mode } := by
  have hp : ¬(r.mode = .configuration ∧ r.dirty = true) := by simp [hd]
  unfold forceMode
  simp only [if_neg hp]
  by_cases h : mode = r.mode
  · rw [if_pos h, h]
  · have ho : mode = .operational := by cases mode <;> simp_all
    rw [if_neg h, ho]
    simp only [hm]

variable {ε α : Type} {lift : RouterError → ε} {change : Router → Router × Except ε α} {r : Router}

theorem transaction_of_pending (h : r.mode = .configuration ∧ r.dirty = true) :
    r.transaction lift change = (r, .error (lift .uncommittedChanges)) := by
  rw [transaction, beginTransaction_of_pending h]

/-- In operational mode a transaction starts from the committed copy, whatever is staged. -/
theorem transaction_restage (h : r.mode = .operational) :
    r.transaction lift change = r.restage.transaction lift change := by
  have begun : ∀ s : Router, s.mode = .operational →
      s.beginTransaction = .ok (s.restage.editing s.committed.cleared) := by
    intro s hs
    have hp : ¬(s.mode = .configuration ∧ s.dirty = true) := by simp [hs]
    rw [beginTransaction, if_neg hp, setMode_configuration hs]
    rfl
  rw [transaction, transaction, begun r h, begun r.restage h]
  rfl

/-- Whether a transaction succeeds is up to its change, if it starts and stays in configuration
mode. -/
theorem transaction_result {c : Configuration} {outcome : Except ε α}
    (h : ¬(r.mode = .configuration ∧ r.dirty = true))
    (hc : change (r.editing r.visible.cleared) = (r.editing c, outcome)) :
    (r.transaction lift change).2 = outcome := by
  simp only [transaction, beginTransaction_of_free h, hc]
  cases outcome with
  | ok a => simp only [commitOrDiscard_editing, Option.map_none, Option.elim_none]
  | error e => simp only [rollBack_editing, Option.map_none, Option.elim_none]

/-- A transaction whose change completes publishes what the change staged. -/
theorem transaction_of_ok {c : Configuration} {a : α} (hs : r.Synced) (hd : r.dirty = false)
    (h : change (r.editing r.committed.cleared) = (r.editing c, .ok a)) :
    r.transaction lift change = ({ r with committed := c, staged := c }, .ok a) := by
  simp only [transaction, beginTransaction_of_clean hs hd, h, commitOrDiscard_editing,
    Option.map_none, Option.elim_none]
  rw [forceMode_of_clean rfl rfl, hd]

/-- A transaction whose change fails leaves the router as it was. -/
theorem transaction_of_error {c : Configuration} {e : ε} (hs : r.Synced) (hd : r.dirty = false)
    (h : change (r.editing r.committed.cleared) = (r.editing c, .error e)) :
    r.transaction lift change = (r, .error e) := by
  simp only [transaction, beginTransaction_of_clean hs hd, h, rollBack_editing, Option.map_none,
    Option.elim_none]
  rw [forceMode_of_clean rfl rfl]
  -- The staged copy is taken from the committed one; it is the old one only because `r` is clean.
  exact congrArg (·, _) (hs.restage_of_clean hd)

end Router

namespace Config

open RouterConsole.Configuration (Alike Edited Refused)

/-- Edits carried out in order, each under its path: those that are applied, those that are skipped
because they are there already, and the configuration at the end. -/
inductive Replays : Configuration → List (String × Edit) → List String → List String →
    Configuration → Prop
  | nil (c : Configuration) : Replays c [] [] [] c
  | applied {c c₁ c' : Configuration} {path : String} {e : Edit} {es : List (String × Edit)}
      {applied skipped : List String} : Edited c e c₁ → Replays c₁ es applied skipped c' →
      Replays c ((path, e) :: es) (path :: applied) skipped c'
  | skipped {c c' : Configuration} {path : String} {e : Edit} {err : RouterError}
      {es : List (String × Edit)} {applied skipped : List String} : Refused c e err →
      err.isDuplicate = true → Replays c es applied skipped c' →
      Replays c ((path, e) :: es) applied (path :: skipped) c'

namespace Replays

variable {c d : Configuration} {es : List (String × Edit)} {applied skipped : List String}

theorem append {c₁ : Configuration} {es' : List (String × Edit)} {applied' skipped' : List String}
    (h : Replays c es applied skipped c₁) (h' : Replays c₁ es' applied' skipped' d) :
    Replays c (es ++ es') (applied ++ applied') (skipped ++ skipped') d := by
  induction h with
  | nil => exact h'
  | applied he _ ih => exact .applied he (ih h')
  | skipped he hd _ ih => exact .skipped he hd (ih h')

theorem of_append {es' : List (String × Edit)} (h : Replays c (es ++ es') applied skipped d) :
    ∃ c₁ a s a' s', Replays c es a s c₁ ∧ Replays c₁ es' a' s' d ∧
      applied = a ++ a' ∧ skipped = s ++ s' := by
  induction es generalizing c applied skipped with
  | nil => exact ⟨c, [], [], applied, skipped, .nil c, h, rfl, rfl⟩
  | cons e es ih =>
    cases h with
    | applied he hrest =>
      obtain ⟨c₁, a, s, a', s', h₁, h₂, rfl, rfl⟩ := ih hrest
      exact ⟨c₁, _ :: a, s, a', s', .applied he h₁, h₂, rfl, rfl⟩
    | skipped he hd hrest =>
      obtain ⟨c₁, a, s, a', s', h₁, h₂, rfl, rfl⟩ := ih hrest
      exact ⟨c₁, a, _ :: s, a', s', .skipped he hd h₁, h₂, rfl, rfl⟩

/-- Alike configurations replay the same edits with the same report. -/
theorem alike {c' d : Configuration} (h : Replays c es applied skipped c') (hcd : Alike c d) :
    ∃ d', Replays d es applied skipped d' ∧ Alike c' d' := by
  induction h generalizing d with
  | nil => exact ⟨d, .nil d, hcd⟩
  | applied he _ ih =>
    obtain ⟨d₁, hd₁, h₁⟩ := hcd.edited he
    obtain ⟨d', hd', h'⟩ := ih h₁
    exact ⟨d', .applied hd₁ hd', h'⟩
  | skipped he hd _ ih =>
    obtain ⟨d', hd', h'⟩ := ih hcd
    exact ⟨d', .skipped (hcd.refused he) hd hd', h'⟩

end Replays

/-- A report with further paths. -/
def Report.extend (report : Report) (applied skipped : List String) : Report :=
  { report with applied := report.applied ++ applied, skipped := report.skipped ++ skipped }

theorem Report.extend_nil (report : Report) : report.extend [] [] = report := by
  simp only [extend, List.append_nil]

theorem Report.extend_extend (report : Report) (a s a' s' : List String) :
    (report.extend a s).extend a' s' = report.extend (a ++ a') (s ++ s') := by
  simp only [extend, List.append_assoc]

section Steps

variable {c c₁ : Configuration} {e : Edit} {err : RouterError}

theorem applyEdits_edited (h : Edited c e c₁) (token : Token) (report : Report) (r : Router)
    (path : String) (es : List (String × Edit)) :
    applyEdits token report (r.editing c) ((path, e) :: es) =
      applyEdits token (report.extend [path] []) (r.editing c₁) es := by
  have hpath : ({ report with applied := report.applied ++ [path] } : Report) =
      report.extend [path] [] := by simp only [Report.extend, List.append_nil]
  rw [applyEdits.eq_def]
  simp only [Router.edit_editing_of_edited h r, hpath]

theorem applyEdits_duplicate (h : Refused c e err) (hd : err.isDuplicate = true) (token : Token)
    (report : Report) (r : Router) (path : String) (es : List (String × Edit)) :
    applyEdits token report (r.editing c) ((path, e) :: es) =
      applyEdits token (report.extend [] [path]) (r.editing c) es := by
  have hpath : ({ report with skipped := report.skipped ++ [path] } : Report) =
      report.extend [] [path] := by simp only [Report.extend, List.append_nil]
  rw [applyEdits.eq_def]
  simp only [Router.edit_editing_of_refused h r, hd, if_true, hpath]

theorem applyEdits_refused (h : Refused c e err) (hd : err.isDuplicate = false) (token : Token)
    (report : Report) (r : Router) (path : String) (es : List (String × Edit)) :
    applyEdits token report (r.editing c) ((path, e) :: es) =
      (r.editing c, .error ⟨.configuration ((Fault.refused err).at token), report.skipped⟩) := by
  unfold applyEdits
  simp only [Router.edit_editing_of_refused h r, hd, Bool.false_eq_true, if_false]

end Steps

theorem applyEdits_of_replays {c c' : Configuration} {es : List (String × Edit)}
    {applied skipped : List String} (h : Replays c es applied skipped c') (token : Token)
    (report : Report) (r : Router) :
    applyEdits token report (r.editing c) es =
      (r.editing c', .ok (report.extend applied skipped)) := by
  induction h generalizing report with
  | nil =>
    rw [report.extend_nil]
    rfl
  | applied he _ ih => rw [applyEdits_edited he, ih, Report.extend_extend]; rfl
  | skipped he hd _ ih => rw [applyEdits_duplicate he hd, ih, Report.extend_extend]; rfl

/-- Edits that cannot be replayed stop at the first refusal that is no duplicate. -/
theorem replays_or_stops (c : Configuration) (es : List (String × Edit)) :
    (∃ applied skipped c', Replays c es applied skipped c') ∨
      ∀ (token : Token) (report : Report) (r : Router), ∃ c' err skipped,
        applyEdits token report (r.editing c) es =
          (r.editing c', .error ⟨.configuration ((Fault.refused err).at token), skipped⟩) := by
  induction es generalizing c with
  | nil => exact .inl ⟨[], [], c, .nil c⟩
  | cons e es ih =>
    obtain ⟨path, e⟩ := e
    rcases Configuration.edited_or_refused c e with ⟨c₁, he⟩ | ⟨err, he⟩
    · rcases ih c₁ with ⟨a, s, c', h⟩ | h
      · exact .inl ⟨path :: a, s, c', .applied he h⟩
      · refine .inr fun token report r => ?_
        rw [applyEdits_edited he]
        exact h token _ r
    · cases hd : err.isDuplicate with
      | true =>
        rcases ih c with ⟨a, s, c', h⟩ | h
        · exact .inl ⟨a, path :: s, c', .skipped he hd h⟩
        · refine .inr fun token report r => ?_
          rw [applyEdits_duplicate he hd]
          exact h token _ r
      | false =>
        exact .inr fun token report r =>
          ⟨c, err, report.skipped, applyEdits_refused he hd token report r path es⟩

/-- The edits of some directives, in order. -/
def edits (ds : List Directive) : List (String × Edit) := ds.flatMap Directive.edits

/-- Directives that can be replayed are carried out before those behind them. -/
theorem applyDirectives_append {c c' : Configuration} {ds : List Directive}
    {applied skipped : List String} (h : Replays c (edits ds) applied skipped c')
    (report : Report) (r : Router) (more : List Directive) :
    applyDirectives report (r.editing c) (ds ++ more) =
      applyDirectives (report.extend applied skipped) (r.editing c') more := by
  induction ds generalizing c applied skipped report with
  | nil =>
    cases h
    rw [report.extend_nil]
    rfl
  | cons d ds ih =>
    rw [edits, List.flatMap_cons] at h
    obtain ⟨c₁, a, s, a', s', h₁, h₂, rfl, rfl⟩ := h.of_append
    simp only [List.cons_append, applyDirectives, applyEdits_of_replays h₁]
    rw [ih h₂, report.extend_extend]

theorem applyDirectives_of_replays {c c' : Configuration} {ds : List Directive}
    {applied skipped : List String} (h : Replays c (edits ds) applied skipped c')
    (report : Report) (r : Router) :
    applyDirectives report (r.editing c) ds =
      (r.editing c', .ok (report.extend applied skipped)) := by
  have happend := applyDirectives_append h report r []
  rwa [List.append_nil] at happend

theorem replays_or_directives_stop (c : Configuration) (ds : List Directive) :
    (∃ applied skipped c', Replays c (edits ds) applied skipped c') ∨
      ∀ (report : Report) (r : Router), ∃ c' err token skipped,
        applyDirectives report (r.editing c) ds =
          (r.editing c', .error ⟨.configuration ((Fault.refused err).at token), skipped⟩) := by
  induction ds generalizing c with
  | nil => exact .inl ⟨[], [], c, .nil c⟩
  | cons d ds ih =>
    rcases replays_or_stops c d.edits with ⟨a, s, c₁, h₁⟩ | h
    · rcases ih c₁ with ⟨a', s', c', h₂⟩ | h₂
      · exact .inl ⟨a ++ a', s ++ s', c', h₁.append h₂⟩
      · refine .inr fun report r => ?_
        simp only [applyDirectives, applyEdits_of_replays h₁]
        exact h₂ _ r
    · refine .inr fun report r => ?_
      obtain ⟨c', err, skipped, he⟩ := h d.token report r
      exact ⟨c', err, d.token, skipped, by simp only [applyDirectives, he]⟩

variable {r : Router} {text : String} {format? : Option Format}

theorem load_of_pending (h : r.mode = .configuration ∧ r.dirty = true) :
    (load r text format?).router = r ∧
      (load r text format?).result = .error (.router .uncommittedChanges) := by
  rw [load, Router.transaction_of_pending h]
  exact ⟨rfl, rfl⟩

theorem load_restage (h : r.mode = .operational) :
    load r text format? = load r.restage text format? := by
  rw [load, load, Router.transaction_restage h]
  rfl

theorem load_result (h : ¬(r.mode = .configuration ∧ r.dirty = true)) {c : Configuration}
    {outcome : Except LoadFailure Report}
    (ha : applyText (format?.getD (detectFormat text)) text (r.editing r.visible.cleared) =
      (r.editing c, outcome)) :
    (load r text format?).result = outcome.mapError (·.error) := by
  have hresult : (r.transaction (fun e => LoadFailure.mk (.router e) [])
      (applyText (format?.getD (detectFormat text)) text)).2 = outcome :=
    Router.transaction_result h ha
  rw [← hresult]
  rfl

/-- What a load makes of a change that completes inside the transaction. -/
theorem load_of_completed (hs : r.Synced) (hd : r.dirty = false) {report : Report}
    {c : Configuration}
    (h : applyText (format?.getD (detectFormat text)) text (r.editing r.committed.cleared) =
      (r.editing c, .ok report)) :
    (load r text format?).router = { r with committed := c, staged := c } ∧
      (load r text format?).result = .ok report := by
  rw [load, Router.transaction_of_ok hs hd h]
  exact ⟨rfl, rfl⟩

/-- What a load makes of a change that fails inside the transaction. -/
theorem load_of_stopped (hs : r.Synced) (hd : r.dirty = false) {failure : Failure}
    {skipped : List String} {c : Configuration}
    (h : applyText (format?.getD (detectFormat text)) text (r.editing r.committed.cleared) =
      (r.editing c, .error ⟨failure, skipped⟩)) :
    (load r text format?).router = r ∧ (load r text format?).result = .error failure := by
  rw [load, Router.transaction_of_error hs hd h]
  exact ⟨rfl, rfl⟩

theorem load_of_parse_error (hs : r.Synced) (hd : r.dirty = false) {e : Error}
    (hp : parse (format?.getD (detectFormat text)) r.committed.names text = .error e) :
    (load r text format?).router = r ∧
      (load r text format?).result = .error (.configuration e) := by
  have ha : applyText (format?.getD (detectFormat text)) text (r.editing r.committed.cleared) =
      (r.editing r.committed.cleared, .error ⟨.configuration e, []⟩) := by
    simp only [applyText, Router.interfaceNames_editing, Configuration.names_cleared, hp]
  exact load_of_stopped hs hd ha

/-- A load whose directives can be replayed publishes the result and reports what was applied and
what was skipped. -/
theorem load_of_replays (hs : r.Synced) (hd : r.dirty = false) {ds : List Directive}
    {applied skipped : List String} {c : Configuration}
    (hp : parse (format?.getD (detectFormat text)) r.committed.names text = .ok ds)
    (h : Replays r.committed.cleared (edits ds) applied skipped c) :
    (load r text format?).router = { r with committed := c, staged := c } ∧
      (load r text format?).result =
        .ok ⟨format?.getD (detectFormat text), applied, skipped⟩ := by
  apply load_of_completed hs hd
  simp only [applyText, Router.interfaceNames_editing, Configuration.names_cleared, hp,
    applyDirectives_of_replays h]
  rfl

/-- A load either replays the directives of its text, or fails in the parser, or is stopped by a
refusal of the router. -/
theorem load_outcome (hs : r.Synced) (hd : r.dirty = false) (text : String)
    (format? : Option Format) :
    (∃ ds applied skipped c,
      parse (format?.getD (detectFormat text)) r.committed.names text = .ok ds ∧
        Replays r.committed.cleared (edits ds) applied skipped c) ∨
      ∃ e, (load r text format?).router = r ∧
        (load r text format?).result = .error (.configuration e) ∧
        (parse (format?.getD (detectFormat text)) r.committed.names text = .error e ∨
          ∃ err token, e = (Fault.refused err).at token) := by
  cases hp : parse (format?.getD (detectFormat text)) r.committed.names text with
  | error e =>
    obtain ⟨hr, he⟩ := load_of_parse_error hs hd hp
    exact .inr ⟨e, hr, he, .inl rfl⟩
  | ok ds =>
    rcases replays_or_directives_stop r.committed.cleared ds with ⟨a, s, c, h⟩ | h
    · exact .inl ⟨ds, a, s, c, rfl, h⟩
    · obtain ⟨c', err, token, skipped, he⟩ :=
        h ⟨format?.getD (detectFormat text), [], []⟩ r
      have ha : applyText (format?.getD (detectFormat text)) text
          (r.editing r.committed.cleared) =
          (r.editing c', .error ⟨.configuration ((Fault.refused err).at token), skipped⟩) := by
        simp only [applyText, Router.interfaceNames_editing, Configuration.names_cleared, hp, he]
      obtain ⟨hr, hresult⟩ := load_of_stopped hs hd ha
      exact .inr ⟨(Fault.refused err).at token, hr, hresult, .inr ⟨err, token, rfl⟩⟩

end Config

end RouterConsole
