import RouterConsole.Proofs.Config.Replay
import RouterConsole.Proofs.Router.Frame

/-!
# New links and everything else

Links come from outside and are no part of the configuration. Taking them writes into both copies
of every selected interface, and nothing that an operator does reads a link or writes one, so new
links may come before a request or after it. A reset is the exception: it brings back the links
that the router was built with.
-/
namespace RouterConsole

section Copies

variable (lookup : String → Option Neighbor) (selection : Option (List String))

/-- What keeps the name and leaves the link alone may come before new links or after them. -/
theorem Interface.relinkSelected_comm {f : Interface → Interface}
    (hname : ∀ i, (f i).name = i.name) (hlink : ∀ i l, f (i.withLink l) = (f i).withLink l)
    (i : Interface) :
    f (i.relinkSelected lookup selection) = (f i).relinkSelected lookup selection := by
  unfold relinkSelected
  rw [hname]
  split
  · rw [relink, relink, hname, hlink]
  · rfl

namespace Configuration

/-- A configuration with new links for the selected interfaces. -/
def relinkSelected (c : Configuration) : Configuration :=
  { c with interfaces := c.interfaces.map (Interface.relinkSelected lookup selection) }

@[simp] theorem routes_relinkSelected (c : Configuration) :
    (c.relinkSelected lookup selection).routes = c.routes := rfl

theorem find?_map_relinkSelected (name : String) (is : List Interface) :
    (is.map (Interface.relinkSelected lookup selection)).find? (·.name == name) =
      (is.find? (·.name == name)).map (Interface.relinkSelected lookup selection) := by
  have hname : ((·.name == name) : Interface → Bool) ∘
      Interface.relinkSelected lookup selection = (·.name == name) := by
    funext i
    have h := congrArg Prod.fst (i.hardware_relinkSelected lookup selection)
    exact congrArg (· == name) h
  rw [List.find?_map, hname]

/-- New links change no setting. -/
@[simp] theorem settings_relinkSelected (c : Configuration) (name : String) :
    (c.relinkSelected lookup selection).settings name = c.settings name := by
  have hkept : ∀ i : Interface, ((i.relinkSelected lookup selection).address,
      (i.relinkSelected lookup selection).status.admin) = (i.address, i.status.admin) := by
    intro i
    unfold Interface.relinkSelected
    split <;> rfl
  rw [settings, settings, interface?, relinkSelected, find?_map_relinkSelected, Option.map_map]
  exact congrArg (Option.map · _) (funext hkept)

@[simp] theorem names_relinkSelected (c : Configuration) :
    (c.relinkSelected lookup selection).names = c.names := by
  simp only [names, relinkSelected, List.map_map]
  exact List.map_congr_left fun i _ => congrArg Prod.fst (i.hardware_relinkSelected _ _)

theorem alike_relinkSelected (c : Configuration) : Alike c (c.relinkSelected lookup selection) :=
  ⟨fun name => (c.settings_relinkSelected lookup selection name).symm, rfl⟩

theorem relinkSelected_cleared (c : Configuration) :
    c.cleared.relinkSelected lookup selection = (c.relinkSelected lookup selection).cleared := by
  simp only [relinkSelected, cleared, List.map_map]
  refine congrArg (Configuration.mk · _) (List.map_congr_left fun i _ => ?_)
  exact (i.cleared_relinkSelected lookup selection).symm

theorem relinkSelected_update {f : Interface → Interface} (hname : ∀ i, (f i).name = i.name)
    (hlink : ∀ i l, f (i.withLink l) = (f i).withLink l) (c : Configuration) (name : String) :
    (c.update name f).relinkSelected lookup selection =
      (c.relinkSelected lookup selection).update name f := by
  simp only [relinkSelected, update]
  refine congrArg (Configuration.mk · _) ?_
  induction c.interfaces with
  | nil => rfl
  | cons i is ih =>
    have hi : (i.relinkSelected lookup selection).name = i.name :=
      congrArg Prod.fst (i.hardware_relinkSelected lookup selection)
    rw [List.map_cons, updateFirst, updateFirst, hi]
    split
    · rw [List.map_cons, Interface.relinkSelected_comm lookup selection hname hlink]
    · rw [List.map_cons, ih]

variable {lookup selection}

/-- An accepted edit is accepted with new links as well, and the results differ by these links. -/
theorem Edited.relinkSelected {c c' : Configuration} {e : Edit} (h : Edited c e c') :
    Edited (c.relinkSelected lookup selection) e (c'.relinkSelected lookup selection) := by
  have hset : ∀ {name s}, c.settings name = some s →
      (c.relinkSelected lookup selection).settings name = some s := fun hs =>
    (c.settings_relinkSelected lookup selection _).trans hs
  cases h with
  | addRoute ht hk =>
    exact .addRoute (fun name hr => (c.names_relinkSelected lookup selection).symm ▸ ht name hr) hk
  | removeRoute hr => exact .removeRoute hr
  | disableRoute hf hd => exact .disableRoute hf hd
  | @setAddress name _ _ a hs hp ho =>
    rw [relinkSelected_update (f := (·.withAddress (some a))) _ _ (fun _ => rfl) fun _ _ => rfl]
    exact .setAddress (hset hs) hp ho
  | deleteAddress hs ho =>
    rw [relinkSelected_update (f := (·.withAddress none)) _ _ (fun _ => rfl) fun _ _ => rfl]
    exact .deleteAddress (hset hs) ho
  | disableInterface hs =>
    rw [relinkSelected_update (f := (·.withAdmin .down)) _ _ (fun _ => rfl) fun _ _ => rfl]
    exact .disableInterface (hset hs)
  | enableInterface hs =>
    rw [relinkSelected_update (f := (·.withAdmin .up)) _ _ (fun _ => rfl) fun _ _ => rfl]
    exact .enableInterface (hset hs)

theorem edit_relinkSelected (c : Configuration) (e : Edit) :
    (c.relinkSelected lookup selection).edit e =
      (c.edit e).map (·.relinkSelected lookup selection) := by
  rcases edited_or_refused c e with ⟨c', h⟩ | ⟨err, h⟩
  · rw [h.edit_eq, h.relinkSelected.edit_eq]
    rfl
  · rw [h.edit_eq, ((c.alike_relinkSelected lookup selection).refused h).edit_eq]
    rfl

end Configuration

end Copies

/-- The operations by which an operator configures a router: all but a reset and new links. -/
def Operation.configures : Operation → Bool
  | .reset | .updateLinks _ _ => false
  | .setMode _ | .forceMode _ | .edit _ | .clear | .commit | .discard | .save => true

namespace Router

variable {lookup : String → Option Neighbor} {selection : Option (List String)}

theorem edit_updateLinks (r : Router) (e : Edit) :
    (r.updateLinks lookup selection).edit e =
      (r.edit e).map (·.updateLinks lookup selection) := by
  rcases r.mode.eq_or with hm | hm
  · rw [edit_of_operational hm, edit_of_operational (r := r.updateLinks lookup selection) hm]
    rfl
  · have hc : (r.updateLinks lookup selection).staged.edit e =
        (r.staged.edit e).map (·.relinkSelected lookup selection) :=
      r.staged.edit_relinkSelected e
    rw [edit_of_configuration hm, edit_of_configuration (r := r.updateLinks lookup selection) hm,
      hc]
    cases r.staged.edit e <;> rfl

theorem clear_updateLinks (r : Router) :
    (r.updateLinks lookup selection).clear = r.clear.map (·.updateLinks lookup selection) := by
  rcases r.mode.eq_or with hm | hm
  · rw [clear_of_operational hm, clear_of_operational (r := r.updateLinks lookup selection) hm]
    rfl
  · rw [clear_of_configuration hm, clear_of_configuration (r := r.updateLinks lookup selection) hm]
    have hc : (r.updateLinks lookup selection).staged.cleared =
        r.staged.cleared.relinkSelected lookup selection :=
      (r.staged.relinkSelected_cleared lookup selection).symm
    rw [hc]
    rfl

/-- New links before an operation of the operator or after it: the same router, or the same
refusal. -/
theorem perform_updateLinks {op : Operation} (h : op.configures = true) (r : Router) :
    (r.updateLinks lookup selection).perform op =
      (r.perform op).map (·.updateLinks lookup selection) := by
  cases op with
  | reset | updateLinks => cases h
  | edit e => exact r.edit_updateLinks e
  | clear => exact r.clear_updateLinks
  | save => rfl
  -- The others look at the mode and at `dirty`, and copy or drop a whole configuration.
  | setMode mode | forceMode mode =>
    obtain ⟨name, initial, committed, staged, m, dirty⟩ := r
    cases mode <;> cases m <;> cases dirty <;> rfl
  | commit | discard =>
    obtain ⟨name, initial, committed, staged, m, dirty⟩ := r
    cases m <;> cases dirty <;> rfl

/-- A change of the router to which new links make no difference: they may come before it or
after it, and what it answers is the same. -/
def LinkFree {α : Type} (change : Router → Router × α) : Prop :=
  ∀ (lookup : String → Option Neighbor) (selection : Option (List String)) (r : Router),
    change (r.updateLinks lookup selection) =
      ((change r).1.updateLinks lookup selection, (change r).2)

section Transactions

variable {ε α : Type}

theorem beginTransaction_updateLinks (r : Router) :
    (r.updateLinks lookup selection).beginTransaction =
      r.beginTransaction.map (·.updateLinks lookup selection) := by
  by_cases hp : r.mode = .configuration ∧ r.dirty = true
  · rw [beginTransaction_of_pending hp,
      beginTransaction_of_pending (r := r.updateLinks lookup selection) hp]
    rfl
  · have hset : (r.updateLinks lookup selection).setMode .configuration =
        (r.setMode .configuration).map (·.updateLinks lookup selection) :=
      perform_updateLinks (show (Operation.setMode .configuration).configures = true from rfl) r
    have hp' : ¬((r.updateLinks lookup selection).mode = .configuration ∧
        (r.updateLinks lookup selection).dirty = true) := hp
    rw [beginTransaction, if_neg hp', beginTransaction, if_neg hp, hset]
    cases r.setMode .configuration with
    | error e => rfl
    | ok entered => exact entered.clear_updateLinks

theorem rollBack_linkFree : LinkFree rollBack := by
  intro lookup selection r
  have hdiscard : (r.updateLinks lookup selection).discard =
      r.discard.map (·.updateLinks lookup selection) :=
    perform_updateLinks (show Operation.discard.configures = true from rfl) r
  rw [rollBack, rollBack, hdiscard]
  cases r.discard <;> rfl

theorem commitOrDiscard_linkFree : LinkFree commitOrDiscard := by
  intro lookup selection r
  have hcommit : (r.updateLinks lookup selection).commit =
      r.commit.map (·.updateLinks lookup selection) :=
    perform_updateLinks (show Operation.commit.configures = true from rfl) r
  have hdiscard : (r.updateLinks lookup selection).discard =
      r.discard.map (·.updateLinks lookup selection) :=
    perform_updateLinks (show Operation.discard.configures = true from rfl) r
  rw [commitOrDiscard, commitOrDiscard, hcommit, hdiscard]
  cases r.commit with
  | ok r' => rfl
  | error e => cases r.discard <;> rfl

theorem forceMode_updateLinks (r : Router) (mode : Mode) :
    (r.updateLinks lookup selection).forceMode mode =
      (r.forceMode mode).updateLinks lookup selection :=
  Except.ok.inj
    (perform_updateLinks (show (Operation.forceMode mode).configures = true from rfl) r)

/-- A transaction keeps this property of the change inside it, whether it publishes or rolls
back. -/
theorem transaction_linkFree (lift : RouterError → ε) {change : Router → Router × Except ε α}
    (h : LinkFree change) : LinkFree (transaction lift change) := by
  intro lookup selection r
  rw [transaction, transaction, beginTransaction_updateLinks]
  cases r.beginTransaction with
  | error e => rfl
  | ok started =>
    simp only [Except.map, h lookup selection started]
    cases (change started).2 with
    | ok a =>
      simp only [commitOrDiscard_linkFree lookup selection (change started).1]
      exact congrArg (·, _) (forceMode_updateLinks _ r.mode)
    | error e =>
      simp only [rollBack_linkFree lookup selection (change started).1]
      exact congrArg (·, _) (forceMode_updateLinks _ r.mode)

end Transactions

end Router

namespace Config

open Router (LinkFree)

theorem applyEdits_linkFree (token : Token) (report : Report) (es : List (String × Edit)) :
    LinkFree fun r => applyEdits token report r es := by
  intro lookup selection r
  induction es generalizing report r with
  | nil => rfl
  | cons e es ih =>
    obtain ⟨path, e⟩ := e
    simp only [applyEdits, r.edit_updateLinks e]
    cases r.edit e with
    | ok r' => exact ih _ r'
    | error err =>
      simp only [Except.map]
      split
      · exact ih _ r
      · rfl

theorem applyDirectives_linkFree (report : Report) (ds : List Directive) :
    LinkFree fun r => applyDirectives report r ds := by
  intro lookup selection r
  induction ds generalizing report r with
  | nil => rfl
  | cons d ds ih =>
    simp only [applyDirectives, applyEdits_linkFree d.token report d.edits lookup selection r]
    cases applyEdits d.token report r d.edits with
    | mk r' outcome =>
      cases outcome with
      | ok report' => exact ih report' r'
      | error failure => rfl

theorem applyText_linkFree (format : Format) (text : String) :
    LinkFree (applyText format text) := by
  intro lookup selection r
  have hvisible : (r.updateLinks lookup selection).visible =
      r.visible.relinkSelected lookup selection := by
    obtain ⟨name, initial, committed, staged, m, dirty⟩ := r
    cases m <;> rfl
  have hnames : (r.updateLinks lookup selection).interfaceNames = r.interfaceNames := by
    rw [Router.interfaceNames, hvisible, Configuration.names_relinkSelected]
    rfl
  rw [applyText, applyText, hnames]
  cases parse format r.interfaceNames text with
  | error e => rfl
  | ok ds => exact applyDirectives_linkFree _ ds lookup selection r

/-- A load before new links or after them: the same router, the same report or failure, and the
same log. -/
theorem load_updateLinks (r : Router) (lookup : String → Option Neighbor)
    (selection : Option (List String)) (text : String) (format? : Option Format) :
    load (r.updateLinks lookup selection) text format? =
      { load r text format? with
        router := (load r text format?).router.updateLinks lookup selection } := by
  rw [load, Router.transaction_linkFree _ (applyText_linkFree _ text) lookup selection r]
  rfl

end Config

namespace Router

/-- What can befall a router: an operation, or a text that is loaded. -/
inductive Event where
  | operation (op : Operation)
  | load (text : String) (format? : Option Config.Format)

namespace Event

def isRelink : Event → Bool
  | operation (.updateLinks _ _) => true
  | operation _ | load _ _ => false

def isReset : Event → Bool
  | operation .reset => true
  | operation _ | load _ _ => false

/-- Whether an event is one by which an operator configures the router. -/
def configures : Event → Bool
  | operation op => op.configures
  | load _ _ => true

theorem eq_of_isRelink {e : Event} (h : e.isRelink = true) :
    ∃ lookup selection, e = operation (.updateLinks lookup selection) := by
  unfold isRelink at h
  split at h
  · exact ⟨_, _, rfl⟩
  · cases h
  · cases h

theorem configures_eq (e : Event) : e.configures = (!e.isRelink && !e.isReset) := by
  cases e with
  | load text format? => rfl
  | operation op => cases op <;> rfl

end Event

def afterEvent (r : Router) : Event → Router
  | .operation op => r.after op
  | .load text format? => (Config.load r text format?).router

/-- What an event is answered with: the report of a load, or why an operation or a load fails. -/
def answer (r : Router) : Event → Except Failure (Option Config.Report)
  | .operation op => ((r.perform op).mapError .router).map fun _ => none
  | .load text format? => (Config.load r text format?).result.map some

def afterEvents (r : Router) (es : List Event) : Router := es.foldl afterEvent r

/-- The answers to all events but new links, which ask for nothing. -/
def answers (r : Router) : List Event → List (Except Failure (Option Config.Report))
  | [] => []
  | e :: es => (if e.isRelink then [] else [r.answer e]) ++ (r.afterEvent e).answers es

variable (lookup : String → Option Neighbor) (selection : Option (List String))

/-- New links before a request of the operator or after it: the same router and the same answer. -/
theorem afterEvent_updateLinks {e : Event} (h : e.configures = true) (r : Router) :
    (r.updateLinks lookup selection).afterEvent e =
        (r.afterEvent e).updateLinks lookup selection ∧
      (r.updateLinks lookup selection).answer e = r.answer e := by
  cases e with
  | load text format? =>
    have hload := Config.load_updateLinks r lookup selection text format?
    exact ⟨congrArg Config.Loaded.router hload,
      congrArg (fun l => l.result.map some) hload⟩
  | operation op =>
    have hperform : (r.updateLinks lookup selection).perform op =
        (r.perform op).map (·.updateLinks lookup selection) := perform_updateLinks h r
    simp only [afterEvent, after, answer, hperform]
    cases r.perform op <;> exact ⟨rfl, rfl⟩

theorem afterEvents_updateLinks {es : List Event} (h : ∀ e ∈ es, e.configures = true)
    (r : Router) :
    (r.updateLinks lookup selection).afterEvents es =
        (r.afterEvents es).updateLinks lookup selection ∧
      (r.updateLinks lookup selection).answers es = r.answers es := by
  induction es generalizing r with
  | nil => exact ⟨rfl, rfl⟩
  | cons e es ih =>
    obtain ⟨hafter, hanswer⟩ := afterEvent_updateLinks lookup selection (h e List.mem_cons_self) r
    obtain ⟨hrest, hanswers⟩ := ih (fun f hf => h f (List.mem_cons_of_mem e hf)) (r.afterEvent e)
    rw [afterEvents, List.foldl_cons, answers, answers, hafter, hanswer, hanswers]
    exact ⟨hrest, rfl⟩

/-- Where nothing is reset, all new links may come last. -/
theorem afterEvents_links_last {es : List Event} (h : ∀ e ∈ es, e.isReset = false) (r : Router) :
    r.afterEvents es =
        (r.afterEvents (es.filter (!·.isRelink))).afterEvents (es.filter (·.isRelink)) ∧
      r.answers es = r.answers (es.filter (!·.isRelink)) := by
  induction es generalizing r with
  | nil => exact ⟨rfl, rfl⟩
  | cons e es ih =>
    have hes : ∀ f ∈ es, f.isReset = false := fun f hf => h f (List.mem_cons_of_mem e hf)
    obtain ⟨hafter, hanswers⟩ := ih hes (r.afterEvent e)
    rw [afterEvents, List.foldl_cons, answers]
    cases he : e.isRelink with
    | false =>
      rw [List.filter_cons_of_pos (by simp [he]), List.filter_cons_of_neg (by simp [he]), answers,
        he, hanswers]
      exact ⟨hafter, rfl⟩
    | true =>
      -- The links go past the requests after them, which the induction has put first.
      have hrequests : ∀ f ∈ es.filter (!·.isRelink), f.configures = true := by
        intro f hf
        obtain ⟨hmem, hlinks⟩ := List.mem_filter.mp hf
        rw [f.configures_eq, hlinks, hes f hmem]
        rfl
      obtain ⟨lookup, selection, rfl⟩ := Event.eq_of_isRelink he
      obtain ⟨hmoved, hsame⟩ := afterEvents_updateLinks lookup selection hrequests r
      rw [List.filter_cons_of_neg (by simp [he]), List.filter_cons_of_pos (by simp [he])]
      refine ⟨hafter.trans ?_, hanswers.trans hsame⟩
      exact congrArg (afterEvents · _) hmoved

/-- New links and the requests of an operator, resets apart, commute. Links taken before an
operation or a load give the same router as links taken after it, and the request gets the same
answer, whether it is carried out or fails. So two histories without resets that hold the same
requests and the same new links, each in their order, lead to the same router and get the same
answers, however requests and links are mixed. -/
theorem links_commute_with_requests (r : Router) :
    (∀ (lookup : String → Option Neighbor) (selection : Option (List String)) (e : Event),
      e.isRelink = false → e.isReset = false →
        (r.updateLinks lookup selection).afterEvent e =
            (r.afterEvent e).updateLinks lookup selection ∧
          (r.updateLinks lookup selection).answer e = r.answer e) ∧
      ∀ es es' : List Event, (∀ e ∈ es, e.isReset = false) → (∀ e ∈ es', e.isReset = false) →
        es.filter (!·.isRelink) = es'.filter (!·.isRelink) →
        es.filter (·.isRelink) = es'.filter (·.isRelink) →
          r.afterEvents es = r.afterEvents es' ∧ r.answers es = r.answers es' := by
  constructor
  · intro lookup selection e hlinks hreset
    have he : e.configures = true := by
      rw [e.configures_eq, hlinks, hreset]
      rfl
    exact afterEvent_updateLinks lookup selection he r
  · intro es es' hes hes' hrequests hlinks
    obtain ⟨hafter, hanswers⟩ := afterEvents_links_last hes r
    obtain ⟨hafter', hanswers'⟩ := afterEvents_links_last hes' r
    rw [hafter, hanswers, hafter', hanswers', hrequests, hlinks]
    exact ⟨rfl, rfl⟩

/-- A link comes up before or after a load that fails at its second line; and it comes up before
an interface is disabled and committed, or between the two. -/
theorem links_commute_with_failed_load :
    let r := Router.new "edge" [.fresh "eth0" ⟨.replicate 6 2⟩]
    let peer : Neighbor := .peer { kind := .host, name := "eth0", mac := ⟨.replicate 6 4⟩ }
    let up : Event := .operation (.updateLinks (fun _ => some peer) none)
    let load : Event :=
      .load "set interfaces ethernet eth0 address 10.0.0.1/24\nset system\n" none
    let enter : Event := .operation (.setMode .configuration)
    let disable : Event := .operation (.edit (.disableInterface "eth0"))
    let commit : Event := .operation .commit
    (r.answer load).toOption = none ∧
      (r.afterEvent up).afterEvent load = (r.afterEvent load).afterEvent up ∧
      (r.afterEvent up).answer load = r.answer load ∧
      r.afterEvents [up, enter, disable, commit] = r.afterEvents [enter, disable, up, commit] ∧
      (r.afterEvents [enter, disable, up, commit]).committed.interfaces.map (·.status) =
        [⟨.down, .up⟩] := by
  intro r peer up load enter disable commit
  obtain ⟨hstep, hrun⟩ := links_commute_with_requests r
  obtain ⟨hafter, hanswer⟩ := hstep (fun _ => some peer) none load rfl rfl
  have hsame := hrun [up, enter, disable, commit] [enter, disable, up, commit] (by decide)
    (by decide) rfl rfl
  exact ⟨by decide +kernel, hafter, hanswer, hsame.1, by decide⟩

end Router

end RouterConsole
