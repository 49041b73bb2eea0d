import RouterConsole.Config.Load
import RouterConsole.Proofs.Router.Operation

/-!
# Reachable routers

The routers that operations and loads lead to. A load, whether it succeeds or fails, does nothing
that a sequence of operations could not do, so an invariant of the operations is an invariant of
loads as well. The first such invariant is that of the two copies: nothing waits for a commit in
operational mode, and where nothing waits the copies are equal.
-/
namespace RouterConsole

namespace Router

/-- Some operations turn the first router into the second. -/
def LeadsTo (r r' : Router) : Prop := ∃ ops, r' = r.run ops

theorem LeadsTo.refl (r : Router) : r.LeadsTo r := ⟨[], rfl⟩

theorem LeadsTo.trans {a b c : Router} (h : a.LeadsTo b) (h' : b.LeadsTo c) : a.LeadsTo c := by
  obtain ⟨ops, rfl⟩ := h
  obtain ⟨ops', rfl⟩ := h'
  exact ⟨ops ++ ops', (run_append a ops ops').symm⟩

theorem leadsTo_after (r : Router) (op : Operation) : r.LeadsTo (r.after op) := ⟨[op], rfl⟩

theorem leadsTo_of_perform {r r' : Router} (op : Operation) (h : r.perform op = .ok r') :
    r.LeadsTo r' := by
  rw [← after_of_ok h]
  exact leadsTo_after r op

/-- What every change keeps is kept by operations, one after the other. -/
theorem LeadsTo.preserves {P : Router → Prop} (hP : ∀ {r r' : Router}, Change r r' → P r → P r')
    {r r' : Router} (h : r.LeadsTo r') (hr : P r) : P r' := by
  obtain ⟨ops, rfl⟩ := h
  induction ops generalizing r with
  | nil => exact hr
  | cons op ops ih => exact ih (hP (change_after r op) hr)

theorem leadsTo_beginTransaction {r s : Router} (h : r.beginTransaction = .ok s) :
    r.LeadsTo s := by
  unfold beginTransaction at h
  by_cases hp : r.mode = .configuration ∧ r.dirty = true
  · rw [if_pos hp] at h
    cases h
  · rw [if_neg hp] at h
    cases hm : r.setMode .configuration with
    | error e =>
      rw [hm] at h
      cases h
    | ok entered =>
      rw [hm] at h
      have hset : r.LeadsTo entered := leadsTo_of_perform (.setMode .configuration) hm
      exact hset.trans (leadsTo_of_perform .clear h)

theorem leadsTo_rollBack (r : Router) : r.LeadsTo r.rollBack.1 := by
  unfold rollBack
  cases h : r.discard with
  | error e => exact .refl r
  | ok r' => exact leadsTo_of_perform .discard h

theorem leadsTo_commitOrDiscard (r : Router) : r.LeadsTo r.commitOrDiscard.1 := by
  unfold commitOrDiscard
  cases h : r.commit with
  | ok r' => exact leadsTo_of_perform .commit h
  | error e =>
    cases h' : r.discard with
    | error e' => exact .refl r
    | ok r' => exact leadsTo_of_perform .discard h'

theorem leadsTo_forceMode (r : Router) (mode : Mode) : r.LeadsTo (r.forceMode mode) :=
  leadsTo_of_perform (.forceMode mode) rfl

/-- A transaction does what operations can do, if the change inside it does. -/
theorem leadsTo_transaction {ε α : Type} (lift : RouterError → ε)
    {change : Router → Router × Except ε α} (hc : ∀ s : Router, s.LeadsTo (change s).1)
    (r : Router) : r.LeadsTo (r.transaction lift change).1 := by
  unfold transaction
  cases hb : r.beginTransaction with
  | error e => exact .refl r
  | ok started =>
    have hstart := (leadsTo_beginTransaction hb).trans (hc started)
    -- Either way the transaction ends by giving the mode back.
    dsimp only
    cases (change started).2 with
    | ok a => exact (hstart.trans (leadsTo_commitOrDiscard _)).trans (leadsTo_forceMode _ _)
    | error e => exact (hstart.trans (leadsTo_rollBack _)).trans (leadsTo_forceMode _ _)

end Router

namespace Config

open Router (LeadsTo)

theorem leadsTo_applyEdits (token : Token) (report : Report) (r : Router)
    (es : List (String × Edit)) : r.LeadsTo (applyEdits token report r es).1 := by
  induction es generalizing report r with
  | nil => exact .refl r
  | cons e es ih =>
    obtain ⟨path, e⟩ := e
    unfold applyEdits
    cases h : r.edit e with
    | ok r' => exact (Router.leadsTo_of_perform (.edit e) h).trans (ih _ r')
    | error err =>
      dsimp only
      by_cases hd : err.isDuplicate = true
      · rw [if_pos hd]
        exact ih _ r
      · rw [if_neg hd]
        exact .refl r

theorem leadsTo_applyDirectives (report : Report) (r : Router) (ds : List Directive) :
    r.LeadsTo (applyDirectives report r ds).1 := by
  induction ds generalizing report r with
  | nil => exact .refl r
  | cons d ds ih =>
    have hd := leadsTo_applyEdits d.token report r d.edits
    unfold applyDirectives
    rcases h : applyEdits d.token report r d.edits with ⟨r', report' | report'⟩
    · rw [h] at hd
      exact hd
    · rw [h] at hd
      exact hd.trans (ih report' r')

theorem leadsTo_applyText (format : Format) (text : String) (r : Router) :
    r.LeadsTo (applyText format text r).1 := by
  unfold applyText
  cases parse format r.interfaceNames text with
  | error e => exact .refl r
  | ok ds => exact leadsTo_applyDirectives _ r ds

/-- A load does what operations can do. -/
theorem leadsTo_load (r : Router) (text : String) (format? : Option Format) :
    r.LeadsTo (load r text format?).router :=
  Router.leadsTo_transaction _ (leadsTo_applyText _ text) r

end Config

/-- What a router can become by operations and loads, each succeeding or not. -/
inductive ReachableFrom (start : Router) : Router → Prop
  | refl : ReachableFrom start start
  | operation {r : Router} (op : Operation) : ReachableFrom start r →
      ReachableFrom start (r.after op)
  | load {r : Router} (text : String) (format? : Option Config.Format) : ReachableFrom start r →
      ReachableFrom start (Config.load r text format?).router

theorem ReachableFrom.leadsTo {start r : Router} (h : ReachableFrom start r) :
    start.LeadsTo r := by
  induction h with
  | refl => exact .refl start
  | operation op _ ih => exact ih.trans (Router.leadsTo_after _ op)
  | load text format? _ ih => exact ih.trans (Config.leadsTo_load _ text format?)

/-- What every change keeps holds of every reachable router, if it holds at the start. -/
theorem ReachableFrom.preserves {P : Router → Prop}
    (hP : ∀ {r r' : Router}, Router.Change r r' → P r → P r') {start r : Router}
    (h : ReachableFrom start r) (hs : P start) : P r :=
  h.leadsTo.preserves hP hs

namespace Router

/-- Nothing waits for a commit in operational mode, and where nothing waits the staged copy is the
committed one. -/
structure Synced (r : Router) : Prop where
  clean : r.mode = .operational → r.dirty = false
  equal : r.dirty = false → r.staged = r.committed

theorem synced_new (name : String) (interfaces : List Interface) :
    (new name interfaces).Synced where
  clean _ := rfl
  equal _ := rfl

theorem synced_restage (r : Router) (mode : Mode) : { r.restage with mode := mode }.Synced where
  clean _ := rfl
  equal _ := rfl

/-- Links are taken from the neighbours in both copies alike. -/
theorem synced_updateLinks {r : Router} (h : r.Synced) (lookup : String → Option Neighbor)
    (selection : Option (List String)) : (r.updateLinks lookup selection).Synced where
  clean hm := h.clean hm
  equal hd := by
    have he : r.staged = r.committed := h.equal hd
    simp only [updateLinks, he]

theorem Change.synced {r r' : Router} (h : Change r r') (hr : r.Synced) : r'.Synced := by
  cases h with
  | none => exact hr
  | leave hd => exact ⟨fun _ => hd, hr.equal⟩
  | restage mode => exact synced_restage r mode
  | edit hm _ => exact ⟨fun ho => by simp [hm] at ho, nofun⟩
  | clear hm => exact ⟨fun ho => by simp [hm] at ho, nofun⟩
  | commit hm => exact ⟨fun _ => rfl, fun _ => rfl⟩
  | reset => exact synced_new r.name r.initial
  | relink lookup selection => exact synced_updateLinks hr lookup selection

/-- Whoever leaves configuration mode by force leaves nothing of the staged copy behind. -/
theorem Synced.forceMode_operational {r : Router} (h : r.Synced) :
    r.forceMode .operational =
      { r with mode := .operational, staged := r.committed, dirty := false } := by
  obtain ⟨hclean, hequal⟩ := h
  obtain ⟨name, initial, committed, staged, mode, dirty⟩ := r
  cases mode with
  | operational =>
    have hd : dirty = false := hclean rfl
    subst hd
    have hs : staged = committed := hequal rfl
    subst hs
    rfl
  | configuration =>
    cases dirty with
    | true => rfl
    | false =>
      have hs : staged = committed := hequal rfl
      subst hs
      rfl

end Router

theorem ReachableFrom.synced {name : String} {interfaces : List Interface} {r : Router}
    (h : ReachableFrom (.new name interfaces) r) : r.Synced :=
  h.preserves Router.Change.synced (Router.synced_new name interfaces)

theorem ReachableFrom.run {start r : Router} (h : ReachableFrom start r) (ops : List Operation) :
    ReachableFrom start (r.run ops) := by
  induction ops generalizing r with
  | nil => exact h
  | cons op ops ih => exact ih (.operation op h)

/-- In every reachable router nothing waits for a commit in operational mode, and where nothing
waits, in either mode, the staged copy shows what the committed one shows: the same interfaces with
the same links, and the same routes in the same order. -/
theorem ReachableFrom.copies_agree {name : String} {interfaces : List Interface} {r : Router}
    (h : ReachableFrom (.new name interfaces) r) :
    (r.mode = .operational → r.dirty = false) ∧
      (r.dirty = false → r.staged.interfaces = r.committed.interfaces ∧
        r.staged.routes.entries = r.committed.routes.entries) := by
  have hr := h.synced
  refine ⟨hr.clean, fun hd => ?_⟩
  have he := hr.equal hd
  constructor
  · exact congrArg Configuration.interfaces he
  · exact congrArg (·.routes.entries) he

/-- After a commit and new links, still in configuration mode, the copies agree on a disabled
interface whose link is up. -/
theorem copies_agree_after_commit :
    let start := Router.new "edge" [.fresh "eth0" ⟨.replicate 6 2⟩]
    let r := start.run [.setMode .configuration, .edit (.disableInterface "eth0"), .commit,
      .updateLinks
        (fun _ => some (.peer { kind := .host, name := "eth0", mac := ⟨.replicate 6 4⟩ })) none]
    r.mode = .configuration ∧ r.dirty = false ∧
      r.committed.interfaces.map (·.status) = [⟨.down, .up⟩] ∧
      r.staged.interfaces = r.committed.interfaces ∧
      r.staged.routes.entries = r.committed.routes.entries := by
  intro start r
  have hr : ReachableFrom start r := ReachableFrom.refl.run _
  have hd : r.dirty = false := by decide
  exact ⟨by decide, hd, by decide, hr.copies_agree.2 hd⟩

end RouterConsole
