import RouterConsole.Proofs.Config.RoundTrip

/-!
# A report says what a load did

The paths that a load reports as applied are a configuration text of their own: written as commands,
they are applied once more, all of them and nothing else, and lead to the same configuration. What a
load skips leaves no trace, so the applied edits alone replay to the same end; and each of them is
asked for by its own path. Only the path by which a route is switched off asks for more, since it
lists the route first. There the route is listed already, so that this is skipped.
-/
namespace RouterConsole.Config

open RouterConsole.Configuration (Edited Refused)
open Text (IsWord unwords)

/-- The words of the path under which an edit is reported. Configuration text asks for nothing to be
removed or switched on. -/
def editWords : Edit → List String
  | .setAddress i a => addressWords i a
  | .disableInterface i => disableWords i
  | .addRoute r => r.pathWords
  | .disableRoute r => disableRouteWords r
  | .deleteAddress _ _ | .enableInterface _ | .removeRoute _ => []

/-- The edits that the path of an edit asks for, when it is read as a command. -/
def commandEdits (e : Edit) : List (String × Edit) :=
  match e with
  | .disableRoute r => [(r.configPath, .addRoute r), (unwords (editWords e), e)]
  | _ => [(unwords (editWords e), e)]

/-- An edit that configuration text can ask for, about the given interfaces. -/
def Stated (names : List String) : Edit → Prop
  | .setAddress i _ | .disableInterface i => i ∈ names
  | .addRoute r | .disableRoute r =>
    r.disabled = false ∧ ∀ name, r.target = .interface name → name ∈ names
  | .deleteAddress _ _ | .enableInterface _ | .removeRoute _ => False

section Edits

variable {names names' : List String} {e : Edit}

theorem Stated.mono (h : Stated names e) (hn : ∀ n ∈ names, n ∈ names') : Stated names' e := by
  cases e with
  | setAddress i _ | disableInterface i => exact hn i h
  | addRoute r | disableRoute r => exact ⟨h.1, fun name ht => hn name (h.2 name ht)⟩
  | deleteAddress | enableInterface | removeRoute => exact h

/-- A directive asks for edits that text can ask for, each under the path of its words. -/
theorem stated_of_mem_edits {d : Directive} (hd : d.Fits names) {p : String × Edit}
    (hp : p ∈ d.edits) : Stated names p.2 ∧ p.1 = unwords (editWords p.2) := by
  cases d with
  | address i a _ | disable i _ =>
    obtain rfl := List.mem_singleton.mp hp
    exact ⟨hd, rfl⟩
  | route r disable _ =>
    rcases List.mem_cons.mp hp with rfl | hp
    · exact ⟨hd, rfl⟩
    · split at hp
      · obtain rfl := List.mem_singleton.mp hp
        exact ⟨hd, rfl⟩
      · exact absurd hp List.not_mem_nil

theorem editWords_ne_nil (h : Stated names e) : editWords e ≠ [] := by
  cases e with
  | setAddress | disableInterface | addRoute | disableRoute => exact List.cons_ne_nil _ _
  | deleteAddress | enableInterface | removeRoute => exact h.elim

theorem isWord_editWords (h : Stated (wordNames names) e) :
    ∀ w ∈ editWords e, IsWord w.toList := by
  have hplain : ∀ w, PlainWord w → IsWord w.toList := fun _ hw => hw.word
  have hname : ∀ n ∈ wordNames names, IsWord n.toList := fun _ hn => (mem_wordNames.mp hn).2
  cases e with
  | setAddress i a => exact forall_addressWords hplain (hname i h) a
  | disableInterface i => exact forall_disableWords hplain (hname i h)
  | addRoute r => exact forall_pathWords hplain fun name ht => hname name (h.2 name ht)
  | disableRoute r => exact forall_disableRouteWords hplain fun name ht => hname name (h.2 name ht)
  | deleteAddress | enableInterface | removeRoute => exact h.elim

/-- The path of an edit is read back as the edit; one that switches a route off lists it first. -/
theorem says_edit (h : Stated names e) {path : List Token} (hp : values path = editWords e) :
    Says names [path] (commandEdits e) := by
  cases e with
  | setAddress i a => exact says_address hp h
  | disableInterface i => exact says_disable hp h
  | addRoute r =>
    have hwords : values path = r.pathWords ++ if false then ["disable"] else [] := by
      rw [hp, if_neg Bool.false_ne_true, List.append_nil]
      rfl
    have hsays := says_route hwords h.2
    rwa [enabled_of_enabled h.1] at hsays
  | disableRoute r =>
    have hwords : values path = r.pathWords ++ if true then ["disable"] else [] := hp
    have hsays := says_route hwords h.2
    rwa [enabled_of_enabled h.1] at hsays
  | deleteAddress | enableInterface | removeRoute => exact h.elim

theorem says_edits {es : List Edit} (h : ∀ e ∈ es, Stated names e) {ps : List (List Token)}
    (hps : ps.map values = es.map editWords) : Says names ps (es.flatMap commandEdits) := by
  rw [List.map_eq_flatMap (f := editWords)] at hps
  refine says_flatMap (fun e he qs hqs => ?_) hps
  obtain ⟨path, rfl, hpath⟩ := List.map_eq_singleton_iff.mp hqs
  exact says_edit (h e he) hpath

/-- The paths of edits, one command for each, are read back as what these commands ask for. -/
theorem parse_of_edits {es : List Edit} (h : ∀ e ∈ es, Stated (wordNames names) e)
    (hn : ∀ n ∈ names, n ∈ names') :
    ∃ ds, parse .commands names'
        (Text.unlines ((es.map fun e => unwords (editWords e)).map ("set " ++ ·))) = .ok ds ∧
      edits ds = es.flatMap commandEdits := by
  have hwords : ∀ path ∈ es.map editWords, ∀ w ∈ path, IsWord w.toList := by
    intro path hmem
    obtain ⟨e, he, rfl⟩ := List.mem_map.mp hmem
    exact isWord_editWords (h e he)
  have hne : [] ∉ es.map editWords := by
    intro hnil
    obtain ⟨e, he, hnil⟩ := List.mem_map.mp hnil
    exact editWords_ne_nil (h e he) hnil
  have hlines : (es.map fun e => unwords (editWords e)).map ("set " ++ ·) =
      (es.map editWords).map fun path => "set " ++ unwords path := by
    rw [List.map_map, List.map_map]
    rfl
  have hknown : ∀ e ∈ es, Stated names' e := fun e he =>
    (h e he).mono fun n hmem => hn n (mem_wordNames.mp hmem).1
  obtain ⟨ps, hps, hvalues⟩ := readPaths_commands hwords hne
  rw [hlines]
  exact parse_of_says hps (says_edits hknown hvalues)

end Edits

section Replay

variable {names : List String} {c c' : Configuration}

theorem key_mem_of_find? {t : RoutingTable} {r entry : StaticRoute} (h : t.find? r = some entry) :
    r.key ∈ t.keys := by
  rw [← RoutingTable.contains_iff, ← RoutingTable.isSome_find?, h]
  rfl

/-- The path of an edit that is carried out is applied once, also when it is read as a command. -/
theorem replays_command {e : Edit} (he : Edited c e c') (hstated : Stated names e)
    (hn : ∀ n ∈ names, n ∈ c.names) :
    ∃ skipped, Replays c (commandEdits e) [unwords (editWords e)] skipped c' := by
  cases e with
  | disableRoute r =>
    cases he with
    | disableRoute hf hd =>
      have hthere : Refused c (.addRoute r) .routeExists :=
        .routeThere (fun name ht => hn name (hstated.2 name ht)) (key_mem_of_find? hf)
      exact ⟨_, .skipped hthere rfl (.applied (.disableRoute hf hd) (.nil _))⟩
  | setAddress | disableInterface | addRoute => exact ⟨_, .applied he (.nil _)⟩
  | deleteAddress | enableInterface | removeRoute => exact hstated.elim

/-- A replay went through edits of which the applied paths tell: read as commands, these paths are
applied once more and lead to the same end. -/
theorem Replays.of_applied {es : List (String × Edit)} {applied skipped : List String}
    (h : Replays c es applied skipped c')
    (hes : ∀ p ∈ es, Stated names p.2 ∧ p.1 = unwords (editWords p.2))
    (hn : ∀ n ∈ names, n ∈ c.names) :
    ∃ log : List Edit, (∀ e ∈ log, Stated names e) ∧
      applied = log.map (fun e => unwords (editWords e)) ∧
      ∃ skipped', Replays c (log.flatMap commandEdits) applied skipped' c' := by
  induction h with
  | nil c => exact ⟨[], nofun, rfl, [], .nil c⟩
  | @applied c c₁ c' path e es applied skipped he _ ih =>
    obtain ⟨⟨hstated, hpath⟩, hrest⟩ := List.forall_mem_cons.mp hes
    obtain ⟨log, hlog, hnames, skipped', hreplays⟩ := ih hrest (he.names_eq ▸ hn)
    obtain ⟨skippedFirst, hfirst⟩ := replays_command he hstated hn
    refine ⟨e :: log, List.forall_mem_cons.mpr ⟨hstated, hlog⟩, ?_, skippedFirst ++ skipped', ?_⟩
    · rw [List.map_cons, ← hnames, ← hpath]
    · rw [List.flatMap_cons, show path = unwords (editWords e) from hpath]
      exact hfirst.append hreplays
  | skipped _ _ _ ih => exact ih (List.forall_mem_cons.mp hes).2 hn

end Replay

/-- The commands of the paths that a report lists as applied. -/
def Report.commands (report : Report) : String :=
  Text.unlines (report.applied.map ("set " ++ ·))

/-- A report of a load, whatever the text was, is a text that does the same once more. Its applied
paths, written as commands, load into every reachable router whose interfaces have the same names
and which has no waiting edits; afterwards that router has the same address and administrative state
under each name and the same routes, in the same order and switched off alike; and the report of
this load lists the same paths as applied. -/
theorem load_report_commands {name : String} {is : List Interface} {r : Router}
    (h : ReachableFrom (.new name is) r) (hd : r.dirty = false) {text : String}
    {format? : Option Format} {report : Report} (hr : (load r text format?).result = .ok report)
    {name' : String} {is' : List Interface} {r' : Router} (h' : ReachableFrom (.new name' is') r')
    (hd' : r'.dirty = false) (hn : ∀ n, n ∈ r'.committed.names ↔ n ∈ r.committed.names) :
    ∃ report', (load r' report.commands (some .commands)).result = .ok report' ∧
      report'.applied = report.applied ∧
      (∀ n, (load r' report.commands (some .commands)).router.committed.settings n =
        (load r text format?).router.committed.settings n) ∧
      (load r' report.commands (some .commands)).router.committed.routes =
        (load r text format?).router.committed.routes := by
  have hs := h.synced
  rcases load_outcome hs hd text format? with
    ⟨ds, applied, skipped, c, hp, hrep⟩ | ⟨e, -, he, -⟩
  · obtain ⟨hrouter, hresult⟩ := load_of_replays hs hd hp hrep
    obtain rfl := Except.ok.inj (hresult.symm.trans hr)
    have hfits := (parse_ends_words _ r.committed.names text).of_ok hp
    have hedits : ∀ p ∈ edits ds,
        Stated (wordNames r.committed.names) p.2 ∧ p.1 = unwords (editWords p.2) := by
      intro p hmem
      obtain ⟨d, hd, hmem⟩ := List.mem_flatMap.mp hmem
      exact stated_of_mem_edits (hfits d hd) hmem
    obtain ⟨log, hlog, happlied, skipped', hreplays⟩ := hrep.of_applied hedits fun n hmem => by
      rw [Configuration.names_cleared]
      exact (mem_wordNames.mp hmem).1
    obtain ⟨c', hreplays', halike⟩ :=
      hreplays.alike (Configuration.alike_cleared fun n => (hn n).symm)
    obtain ⟨ds', hp', hedits'⟩ := parse_of_edits hlog fun n hmem => (hn n).mpr hmem
    rw [← happlied] at hp'
    change parse .commands r'.committed.names
      (Report.commands ⟨format?.getD (detectFormat text), applied, skipped⟩) = .ok ds' at hp'
    rw [← hedits'] at hreplays'
    obtain ⟨hrouter', hresult'⟩ :=
      @load_of_replays r' _ (some .commands) h'.synced hd' ds' _ _ _ hp' hreplays'
    refine ⟨_, hresult', rfl, ?_⟩
    rw [hrouter, hrouter']
    exact ⟨fun n => (halike.settings n).symm, halike.routes.symm⟩
  · rw [he] at hr
    cases hr

/-- A load that lists a route, switches it off and skips a line; the commands of its report load
into another router, and there the listing is what is skipped. -/
theorem load_report_commands_of_disabled_route :
    let r := Router.new "edge" [.fresh "eth0" ⟨.replicate 6 2⟩]
    let other := Router.new "core" [.fresh "eth0" ⟨.replicate 6 4⟩]
    let text :=
      "protocols static route 10.0.0.0/8\x7b\n disable\n interface eth0\n distance 1\n\x7d\n" ++
        "interfaces ethernet eth0 disable\ninterfaces ethernet eth0 disable\n"
    let report : Report :=
      { format := .hierarchical
        applied := ["protocols static route 10.0.0.0/8 interface eth0",
          "protocols static route 10.0.0.0/8 interface eth0 disable",
          "interfaces ethernet eth0 disable"]
        skipped := ["interfaces ethernet eth0 disable"] }
    (load r text).result = .ok report ∧
      ∃ report', (load other report.commands (some .commands)).result = .ok report' ∧
        report'.applied = report.applied ∧
        (load other report.commands (some .commands)).router.committed.settings "eth0" =
          some (none, .down) ∧
        (load other report.commands (some .commands)).router.committed.routes.entries =
          [{ destination := ⟨.ofNat 0x0A000000, 8, by decide⟩, target := .interface "eth0",
             disabled := true }] := by
  intro r other text report
  have hloaded : (load r text).result.toOption = some report ∧
      (load r text).router.committed.settings "eth0" = some (none, .down) ∧
      (load r text).router.committed.routes.entries =
        [{ destination := ⟨.ofNat 0x0A000000, 8, by decide⟩, target := .interface "eth0",
           disabled := true }] := by decide +kernel
  obtain ⟨hreport, hsettings, hroutes⟩ := hloaded
  have hresult := eq_ok_of_toOption hreport
  have hr : ReachableFrom (.new "edge" [.fresh "eth0" ⟨.replicate 6 2⟩]) r := .refl
  have hother : ReachableFrom (.new "core" [.fresh "eth0" ⟨.replicate 6 4⟩]) other := .refl
  have hnames : other.committed.names = r.committed.names := by decide +kernel
  obtain ⟨report', hagain, happlied, hset, htable⟩ :=
    load_report_commands hr rfl hresult hother rfl fun n => by rw [hnames]
  exact ⟨hresult, report', hagain, happlied, (hset "eth0").trans hsettings,
    (congrArg RoutingTable.entries htable).trans hroutes⟩

end RouterConsole.Config
