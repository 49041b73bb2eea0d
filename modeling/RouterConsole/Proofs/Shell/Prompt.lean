import Mathlib.Data.List.Forall2
import RouterConsole.Proofs.Config.RoundTrip
import RouterConsole.Proofs.Shell.Lines

/-!
# Generated commands at the prompt

The commands that a configuration is written as can also be typed. The prompt reads them by its own
patterns and not by the grammar of configuration texts, and the line that switches a route off does
only that, where a text lists the route once more. So each line asks for one edit (`AsksFor`), and
together they ask for what nested blocks say once each. Typing the commands replays these edits and
comes to the configuration that loading them comes to.
-/
namespace RouterConsole

/-- Wiping changes nothing where nothing is set. -/
theorem Interface.cleared_of_blank {i : Interface} (ha : i.address = none)
    (hup : i.isAdminDown = false) : i.cleared = i := by
  have hadmin : i.status.admin = .up := by
    cases h : i.status.admin with
    | up => rfl
    | down =>
      rw [isAdminDown, h] at hup
      cases hup
  rw [cleared, withAdmin, withAddress, InterfaceStatus.withAdmin, ← ha, ← hadmin]

theorem Configuration.cleared_of_blank {c : Configuration}
    (hi : ∀ i ∈ c.interfaces, i.address = none ∧ i.isAdminDown = false)
    (hr : c.routes.entries = []) : c.cleared = c := by
  have hinterfaces : c.interfaces.map Interface.cleared = c.interfaces :=
    (List.map_congr_left fun i hmem =>
      Interface.cleared_of_blank (hi i hmem).1 (hi i hmem).2).trans (List.map_id _)
  have hroutes : c.routes = {} := congrArg RoutingTable.mk hr
  rw [cleared, hinterfaces, ← hroutes]

namespace Shell

open RouterConsole.Configuration (Edited)
open Config (Replays addressWords command commands disableRouteWords disableWords enabled
  generatedEdits interfaceEdits interfaceStatements routeEdits routeStatements statements)
open Text (IsWord)

variable {files : Storage.Files} {r : Router}

/-! ## Lines that ask for edits -/

/-- The words of a line fit a command that asks for this edit. -/
def AsksFor (line : String) (e : Edit) : Prop :=
  ∃ c args, Command.fitting? (Text.words line) = some (c, args) ∧ c.edit? args = some (.ok e)

/-- In configuration mode a line that asks for an edit does it. -/
theorem dispatch_of_asksFor {line : String} {e : Edit} {c' : Configuration} (h : AsksFor line e)
    (hm : r.mode = .configuration) (he : Edited r.staged e c') (files : Storage.Files) :
    (dispatch files r line).router = { r with staged := c', dirty := true } ∧
      (dispatch files r line).result = .done := by
  obtain ⟨c, args, hfit, hedit⟩ := h
  have hcall : (Command.registry files).called? line = some (c, args) :=
    called?_of_find? ((Command.find?_eq files line).trans hfit)
  have hrouter : (Except.ok e >>= r.edit) = .ok { r with staged := c', dirty := true } := by
    change r.edit e = _
    rw [Router.edit_of_configuration hm, he.edit_eq]
    rfl
  have hx : c.execute files args r =
      { router := { r with staged := c', dirty := true },
        output := Command.line Command.editMarker } := by
    rw [Command.execute_of_configuration hedit hm, hrouter]
    rfl
  exact dispatch_of_finished hcall hx

/-- Typing lines that ask for edits replays the edits, if none of them is there already. -/
theorem sent_of_replays {lines : List String} {es : List (String × Edit)}
    (h : List.Forall₂ (fun line e => AsksFor line e.2) lines es) {applied : List String}
    {c' : Configuration} (hm : r.mode = .configuration) (hr : Replays r.staged es applied [] c')
    (files : Storage.Files) :
    sent files r lines = { r with staged := c', dirty := r.dirty || !es.isEmpty } ∧
      ∀ answer ∈ answers files r lines, answer = .done := by
  induction h generalizing r applied with
  | nil =>
    cases hr
    exact ⟨by simp, nofun⟩
  | @cons line e lines es hline _ ih =>
    cases hr with
    | applied he hrest =>
      obtain ⟨hrouter, hdone⟩ := dispatch_of_asksFor hline hm he files
      obtain ⟨hsent, hanswers⟩ :=
        ih (r := (dispatch files r line).router) (by rw [hrouter]; exact hm)
          (by rw [hrouter]; exact hrest)
      constructor
      · rw [sent_cons, hsent, hrouter]
        simp
      · intro answer ha
        rcases List.mem_cons.mp ha with rfl | ha
        · exact hdone
        · exact hanswers answer ha

/-! ## The lines of a configuration -/

theorem Arguments.value_cons (n w : String) (args : Arguments) (m : String) :
    Arguments.value ((n, w) :: args) m = if m = n then w else args.value m := by
  by_cases h : m = n
  · rw [if_pos h, h, Arguments.value, List.lookup_cons_self]
    rfl
  · have hne : (m == n) = false := beq_false_of_ne h
    rw [if_neg h, Arguments.value, List.lookup_cons, hne]
    rfl

theorem RouteCommand.typed_eq_ok_iff {α : Type} {read : String → Except ValueFault α}
    {value : String} {a : α} : typed read value = .ok a ↔ read value = .ok a := mapError_eq_ok_iff

theorem asksFor_setAddress {name : String} {a : IPv4.InterfaceAddress}
    (h : ∀ w ∈ addressWords name a, IsWord w.toList) :
    AsksFor (command (addressWords name a)) (.setAddress name a) := by
  refine ⟨.setAddress, [("interface", name), ("address", a.text)], ?_, ?_⟩
  · rw [Config.words_command h]
    refine Command.fitting?_eq_some_iff.mpr ?_
    simp [Command.patternWords, Command.interfaceWords, PatternWord.slot, addressWords,
      Pattern.matchWords]
  · have haddress := RouteCommand.typed_eq_ok_iff.mpr (Value.interfaceAddress_text a)
    simp only [Command.edit?, Arguments.value_cons, String.reduceEq, if_true, if_false, haddress]
    rfl

theorem asksFor_disableInterface {name : String} (h : ∀ w ∈ disableWords name, IsWord w.toList) :
    AsksFor (command (disableWords name)) (.disableInterface name) := by
  refine ⟨.disableInterface, [("interface", name)], ?_, rfl⟩
  rw [Config.words_command h]
  refine Command.fitting?_eq_some_iff.mpr ?_
  simp [Command.patternWords, Command.interfaceWords, PatternWord.slot, disableWords,
    Pattern.matchWords]

/-- The command that adds or disables a route, in the shape that its target and its distance
need. -/
def RouteCommand.ofRoute (action : RouteAction) (r : StaticRoute) : RouteCommand where
  action := action
  via := match r.target with
    | .nextHop _ => .nextHop
    | .interface _ => .interface
  withDistance := decide (r.distance ≠ .default)

/-- What its configuration path gives to the placeholders. -/
def RouteCommand.argumentsOf (r : StaticRoute) : Arguments :=
  ("destination", r.destination.text) ::
    (match r.target with
      | .nextHop g => ("next_hop", g.text)
      | .interface n => ("interface", n)) ::
    if r.distance = .default then [] else [("distance", toString r.distance.toNat)]

theorem RouteCommand.route_argumentsOf (action : RouteAction) (r : StaticRoute) :
    (ofRoute action r).route (argumentsOf r) = .ok (enabled r) := by
  obtain ⟨destination, target, distance, disabled⟩ := r
  have hdestination := typed_eq_ok_iff.mpr (Value.network_text destination)
  have hdistance := typed_eq_ok_iff.mpr (Value.distance_toString distance)
  have hgateway : ∀ g : IPv4.Address, typed Value.gateway g.text = .ok g := fun g =>
    typed_eq_ok_iff.mpr (Value.gateway_text g)
  by_cases hd : distance = .default
  all_goals
    cases target <;>
      simp only [route, ofRoute, argumentsOf, ne_eq, hd, not_true_eq_false, not_false_eq_true,
        decide_false, decide_true, Bool.false_eq_true, if_false, if_true, Arguments.value_cons,
        String.reduceEq, hdestination, hgateway, hdistance] <;>
      rfl

theorem RouteCommand.matchWords_ofRoute {action : RouteAction} (h : action.verb = "set")
    (r : StaticRoute) :
    Pattern.matchWords (ofRoute action r).patternWords
      ("set" :: (r.pathWords ++ if action = .disable then ["disable"] else [])) =
        some (argumentsOf r) := by
  obtain ⟨destination, target, distance, disabled⟩ := r
  cases action with
  | delete => exact absurd h (by decide)
  | set | disable =>
    by_cases hd : distance = .default
    all_goals
      cases target <;>
        simp [ofRoute, argumentsOf, patternWords, StaticRoute.pathWords, RouteTarget.words,
          RouteVia.slot, RouteVia.word, RouteVia.argument, PatternWord.slot, Pattern.matchWords,
          RouteAction.verb, hd]

/-- The command of a route asks to list it, and the one with a word more asks to switch it off. -/
theorem asksFor_route (action : RouteAction) (hverb : action.verb = "set") {r : StaticRoute}
    {path : List String}
    (hpath : path = r.pathWords ++ if action = .disable then ["disable"] else [])
    (h : ∀ w ∈ path, IsWord w.toList) :
    AsksFor (command path) ((RouteCommand.ofRoute action r).edit (enabled r)) := by
  refine ⟨.route (.ofRoute action r), RouteCommand.argumentsOf r, ?_, ?_⟩
  · rw [Config.words_command h, hpath]
    exact Command.fitting?_eq_some_iff.mpr (RouteCommand.matchWords_ofRoute hverb r)
  · rw [Command.edit?, RouteCommand.route_argumentsOf]
    rfl

/-- The commands of some paths ask for some edits, one each. -/
def Asked (paths : List (List String)) (es : List (String × Edit)) : Prop :=
  List.Forall₂ (fun path e => AsksFor (command path) e.2) paths es

theorem Asked.append {paths paths' : List (List String)} {es es' : List (String × Edit)}
    (h : Asked paths es) (h' : Asked paths' es') : Asked (paths ++ paths') (es ++ es') :=
  List.rel_append h h'

theorem asked_flatMap {α : Type} {l : List α} {paths : α → List (List String)}
    {es : α → List (String × Edit)} (h : ∀ a ∈ l, Asked (paths a) (es a)) :
    Asked (l.flatMap paths) (l.flatMap es) := by
  induction l with
  | nil => exact .nil
  | cons a l ih =>
    rw [List.flatMap_cons, List.flatMap_cons]
    exact (h a List.mem_cons_self).append (ih fun b hb => h b (List.mem_cons_of_mem a hb))

theorem asked_interface {i : Interface}
    (hwords : ∀ path ∈ interfaceStatements i, ∀ w ∈ path, IsWord w.toList) :
    Asked (interfaceStatements i) (interfaceEdits i) := by
  rw [interfaceStatements] at hwords ⊢
  refine Asked.append ?_ ?_
  · cases ha : i.address with
    | none => exact .nil
    | some a =>
      have hpath := hwords (addressWords i.name a) (by simp [ha])
      exact .cons (asksFor_setAddress hpath) .nil
  · split
    · rename_i hdown
      have hpath := hwords (disableWords i.name) (by simp [hdown])
      exact .cons (asksFor_disableInterface hpath) .nil
    · exact .nil

theorem asked_route {r : StaticRoute}
    (hwords : ∀ path ∈ routeStatements r, ∀ w ∈ path, IsWord w.toList) :
    Asked (routeStatements r) (routeEdits .hierarchical r) := by
  have hlisted : AsksFor (command r.pathWords) (.addRoute (enabled r)) :=
    asksFor_route .set rfl (List.append_nil _).symm (hwords _ List.mem_cons_self)
  unfold routeStatements routeEdits
  refine .cons hlisted ?_
  split
  · rename_i hd
    have hpath := hwords (disableRouteWords r) (by simp [routeStatements, hd])
    exact .cons (asksFor_route .disable rfl rfl hpath) .nil
  · exact .nil

/-- Each command of a configuration asks for one edit. -/
theorem asked_statements {c : Configuration}
    (hwords : ∀ path ∈ statements c, ∀ w ∈ path, IsWord w.toList) :
    Asked (statements c) (generatedEdits .hierarchical c) := by
  refine (asked_flatMap fun i hi => ?_).append (asked_flatMap fun r hr => ?_)
  · exact asked_interface fun path hp =>
      hwords path (List.mem_append_left _ (List.mem_flatMap_of_mem hi hp))
  · exact asked_route fun path hp =>
      hwords path (List.mem_append_right _ (List.mem_flatMap_of_mem hr hp))

/-! ## The whole session -/

theorem dispatch_configure (hm : r.mode = .operational) (files : Storage.Files) :
    (dispatch files r "configure").router = { r.restage with mode := .configuration } ∧
      (dispatch files r "configure").result = .done := by
  have hcall : (Command.registry files).called? "configure" = some (.configure, []) :=
    Command.called?_of_words (by decide +kernel)
  have hx : Command.configure.execute files [] r =
      { router := { r.restage with mode := .configuration },
        output := Command.line Command.editMarker } := by
    simp only [Command.execute, hm, reduceCtorEq, if_false, Router.setMode_configuration hm]
    rfl
  exact dispatch_of_finished hcall hx

/-- A commit of nothing is answered as well. -/
theorem dispatch_commit (hm : r.mode = .configuration)
    (hclean : r.dirty = false → r.staged = r.committed) (files : Storage.Files) :
    (dispatch files r "commit").router = { r with committed := r.staged, dirty := false } ∧
      (dispatch files r "commit").result = .done := by
  have hcall : (Command.registry files).called? "commit" = some (.commit, []) :=
    Command.called?_of_words (by decide +kernel)
  cases hd : r.dirty with
  | true =>
    have hx : Command.commit.execute files [] r =
        { router := { r with committed := r.staged, dirty := false },
          output := Command.line Command.editMarker } := by
      rw [Command.execute, Router.commit_of_dirty hm hd]
      rfl
    exact dispatch_of_finished hcall hx
  | false =>
    have hsame : ({ r with committed := r.staged, dirty := false } : Router) = r := by
      obtain ⟨name, initial, committed, staged, mode, dirty⟩ := r
      have he : staged = committed := hclean hd
      have hd' : dirty = false := hd
      rw [he, hd']
    have hx : Command.commit.execute files [] r =
        { router := r,
          output := Command.line RouterError.nothingToCommit.message ++
            Command.line Command.editMarker } := by
      rw [Command.execute, Router.commit_of_clean hm hd]
    rw [hsame]
    exact dispatch_of_finished hcall hx

theorem dispatch_exit (hm : r.mode = .configuration) (hd : r.dirty = false)
    (files : Storage.Files) :
    (dispatch files r "exit").router = { r with mode := .operational } ∧
      (dispatch files r "exit").result = .done := by
  have hcall : (Command.registry files).called? "exit" = some (.exit, []) :=
    Command.called?_of_words (by decide +kernel)
  have hx : Command.exit.execute files [] r =
      { router := { r with mode := .operational }, output := Command.line "exit" } := by
    simp only [Command.execute, hm, reduceCtorEq, if_false, Router.setMode_operational hm, hd,
      Bool.false_eq_true]
    rfl
  exact dispatch_of_finished hcall hx

/-- What an operator types to put a configuration in force. -/
def session (c : Configuration) : List String := "configure" :: commands c ++ ["commit", "exit"]

/-- The commands of a configuration as one text, without a line feed after the last. -/
def commandText (c : Configuration) : String := String.intercalate "\n" (commands c)

section Session

variable {c c' : Configuration} {applied : List String}

theorem sent_session (hwords : ∀ path ∈ statements c, ∀ w ∈ path, IsWord w.toList)
    (hm : r.mode = .operational)
    (hr : Replays r.committed (generatedEdits .hierarchical c) applied [] c')
    (files : Storage.Files) :
    sent files r (session c) =
        { r with mode := .operational, committed := c', staged := c', dirty := false } ∧
      ∀ answer ∈ answers files r (session c), answer = .done := by
  have hlines : List.Forall₂ (fun line e => AsksFor line e.2) (commands c)
      (generatedEdits .hierarchical c) := by
    rw [Config.commands_eq, List.forall₂_map_left_iff]
    exact asked_statements hwords
  obtain ⟨hentered, hdone₁⟩ := dispatch_configure hm files
  obtain ⟨hedited, hdone₂⟩ := sent_of_replays (r := { r.restage with mode := .configuration })
    hlines rfl hr files
  let edited : Router := { r with
    mode := .configuration, staged := c', dirty := !(generatedEdits .hierarchical c).isEmpty }
  have hsent : sent files { r.restage with mode := .configuration } (commands c) = edited := hedited
  -- Where nothing was edited the commit does nothing, but then the copies are equal.
  have hclean : edited.dirty = false → edited.staged = edited.committed := by
    intro hd
    have hnil : generatedEdits .hierarchical c = [] := by simpa [edited] using hd
    rw [hnil] at hr
    cases hr
    rfl
  obtain ⟨hcommitted, hdone₃⟩ := dispatch_commit (r := edited) rfl hclean files
  obtain ⟨hleft, hdone₄⟩ :=
    dispatch_exit (r := { edited with committed := c', dirty := false }) rfl rfl files
  have hcommitted' : (dispatch files edited "commit").router =
      { edited with committed := c', dirty := false } := hcommitted
  constructor
  · rw [session, List.cons_append, sent_cons, hentered, sent_append, hsent, sent_cons, hcommitted',
      sent_cons, hleft, sent_nil]
  · intro answer hanswer
    rw [session, List.cons_append, answers, hentered, answers_append, hsent, answers, hcommitted',
      answers, hdone₁, hdone₃, hdone₄, answers, List.mem_cons, List.mem_append] at hanswer
    rcases hanswer with rfl | hanswer | hanswer
    · rfl
    · exact hdone₂ answer hanswer
    · simpa using hanswer

theorem values_of_commandText (hwords : ∀ path ∈ statements c, ∀ w ∈ path, IsWord w.toList) :
    (Config.tokenize (commandText c)).map Config.values = (statements c).map ("set" :: ·) := by
  rw [commandText, Config.commands_eq,
    Config.values_tokenize_intercalate (Config.readable_commands hwords),
    Config.words_commands hwords]

theorem load_commandText (hwords : ∀ path ∈ statements c, ∀ w ∈ path, IsWord w.toList)
    (hknown : Config.Known r.committed.names c) (hm : r.mode = .operational)
    {skipped : List String}
    (hr : Replays r.committed.cleared (generatedEdits .commands c) applied skipped c') :
    (Config.load r (commandText c) (some .commands)).router =
        { r with mode := .operational, committed := c', staged := c', dirty := false } ∧
      (Config.load r (commandText c) (some .commands)).result =
        .ok ⟨.commands, applied, skipped⟩ := by
  obtain ⟨ds, hparse, hedits⟩ := Config.parse_of_statements hknown (values_of_commandText hwords)
  have hs : r.restage.Synced := Router.synced_restage r r.mode
  rw [Config.load_restage hm, ← hm]
  exact Config.load_of_replays hs rfl hparse (hedits ▸ hr)

end Session

/-- The commands that are generated from a router can be typed instead of loaded. The source is a
router that operations, loads and lines lead to, from interfaces with different names, each of them
a word, and usable addresses; the target is in operational mode and has interfaces with the same
names, of which none has an address or is disabled, and no routes. Then every line of the session
is answered without a failure, and afterwards the target is the router that loading the commands
as one text gives: in operational mode, with the addresses and administrative states of the source
under every name, and its routes in the same order, switched off where they are in the source. -/
theorem session_eq_load {name : String} {interfaces : List Interface} {source target : Router}
    (hsource : Reaches (.new name interfaces) source) (hnodup : (interfaces.map (·.name)).Nodup)
    (hwords : ∀ i ∈ interfaces, IsWord i.name.toList)
    (husable : ∀ i ∈ interfaces, ∀ a, i.address = some a → UsableAddress a)
    (hm : target.mode = .operational)
    (hnames : ∀ n, n ∈ target.committed.names ↔ n ∈ source.committed.names)
    (hblank : ∀ i ∈ target.committed.interfaces, i.address = none ∧ i.isAdminDown = false)
    (hempty : target.committed.routes.entries = []) (files : Storage.Files) :
    (∀ answer ∈ answers files target (session source.committed), answer = .done) ∧
      (∃ report, (Config.load target (commandText source.committed) (some .commands)).result =
        .ok report) ∧
      sent files target (session source.committed) =
        (Config.load target (commandText source.committed) (some .commands)).router ∧
      (sent files target (session source.committed)).mode = .operational ∧
      (∀ n, (sent files target (session source.committed)).committed.settings n =
        source.committed.settings n) ∧
      (sent files target (session source.committed)).committed.routes.entries =
        source.committed.routes.entries := by
  have hs := hsource.reachableFrom
  have hu : Usable interfaces := usable_iff.mpr husable
  have hnamed := hs.named.committed
  obtain ⟨hown, htargets⟩ := hs.forall_names (P := (IsWord ·.toList)) hu hwords
  have hstatements : ∀ path ∈ statements source.committed, ∀ w ∈ path, IsWord w.toList :=
    fun path hp => Config.forall_statement (fun _ hw => hw.word) hown htargets hp
  have hknown : Config.Known target.committed.names source.committed := by
    obtain ⟨hown, htargets⟩ :=
      hs.forall_names (P := (· ∈ target.committed.names)) hu fun i hi =>
        (hnames _).mpr (hnamed ▸ List.mem_map_of_mem hi)
    exact ⟨hown, htargets⟩
  obtain ⟨c', hreplays, hsettings, hroutes⟩ :=
    Config.replays_either (hs.wellFormed hu).committed (hnamed ▸ hnodup) hnames
  obtain ⟨hloaded, hresult⟩ := load_commandText hstatements hknown hm (hreplays .commands)
  -- The prompt starts from what is committed and not from a wiped copy, but nothing is set there.
  have hprompt := hreplays .hierarchical
  rw [Configuration.cleared_of_blank hblank hempty] at hprompt
  obtain ⟨hsent, hanswers⟩ := sent_session hstatements hm hprompt files
  refine ⟨hanswers, ⟨_, hresult⟩, hsent.trans hloaded.symm, ?_, fun n => ?_, ?_⟩
  · rw [hsent]
  · rw [hsent]
    exact hsettings n
  · rw [hsent]
    exact hroutes

/-- An address, a disabled interface and a route with a distance that is switched off, typed into a
router that has the interfaces in the other order. -/
theorem session_eq_load_of_disabled_route :
    let files : Storage.Files := fun _ => .missing
    let interfaces : List Interface :=
      [.fresh "eth0" ⟨.replicate 6 2⟩, .fresh "eth1" ⟨.replicate 6 4⟩]
    let route : StaticRoute :=
      { destination := ⟨.ofNat 0x0A010000, 16, by decide⟩, target := .interface "eth1",
        distance := ⟨5, by decide, by decide⟩ }
    let source := (Router.new "edge" interfaces).run [.setMode .configuration,
      .edit (.setAddress "eth0" ⟨.ofNat 0x0A000000, 31⟩), .edit (.disableInterface "eth1"),
      .edit (.addRoute route), .edit (.disableRoute route), .commit]
    let target := Router.new "core" interfaces.reverse
    (∀ answer ∈ answers files target (session source.committed), answer = .done) ∧
      sent files target (session source.committed) =
        (Config.load target (commandText source.committed) (some .commands)).router ∧
      (sent files target (session source.committed)).committed.settings "eth0" =
        some (some ⟨.ofNat 0x0A000000, 31⟩, .up) ∧
      (sent files target (session source.committed)).committed.settings "eth1" =
        some (none, .down) ∧
      (sent files target (session source.committed)).committed.routes.entries =
        [{ route with disabled := true }] := by
  intro files interfaces route source target
  have hsource : Reaches (.new "edge" interfaces) source := Reaches.refl.run _
  have husable : ∀ i ∈ interfaces, ∀ a, i.address = some a → UsableAddress a := by
    simp only [interfaces, List.forall_mem_cons]
    exact ⟨nofun, nofun, nofun⟩
  have hnames : target.committed.names = source.committed.names.reverse := by decide +kernel
  have hset₀ : source.committed.settings "eth0" = some (some ⟨.ofNat 0x0A000000, 31⟩, .up) := by
    decide +kernel
  have hset₁ : source.committed.settings "eth1" = some (none, .down) := by decide +kernel
  have hroutes : source.committed.routes.entries = [{ route with disabled := true }] := by
    decide +kernel
  obtain ⟨hdone, -, hloaded, -, hsettings, hentries⟩ :=
    session_eq_load hsource (by decide) (by decide) husable rfl
      (fun n => by rw [hnames, List.mem_reverse]) (by decide) rfl files
  refine ⟨hdone, hloaded, ?_, ?_, ?_⟩
  · rw [hsettings, hset₀]
  · rw [hsettings, hset₁]
  · rw [hentries, hroutes]

end Shell

end RouterConsole
