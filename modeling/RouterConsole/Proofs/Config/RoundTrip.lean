import RouterConsole.Proofs.Config.Blocks
import RouterConsole.Proofs.Router.WellFormed

/-!
# Generated text loads back

The edits of a generated text can all be replayed on a wiped configuration with the same interface
names: nothing is there yet, so each is applied, but for the second listing of a disabled route in
commands. What they leave behind is the configuration that the text was generated from.
-/
namespace RouterConsole

open Text (unwords)

namespace RoutingTable

theorem find?_add {t : RoutingTable} {r : StaticRoute} (h : r.key ∉ t.keys) :
    (t.add r).find? r = some r := by
  have hfront : t.entries.find? (·.same r) = none := by
    refine List.find?_eq_none.mpr fun e he hs => h ?_
    exact StaticRoute.same_iff.mp hs ▸ List.mem_map_of_mem he
  have hself : r.same r = true := StaticRoute.same_iff.mpr rfl
  simp only [find?, add, List.find?_append, hfront, Option.none_or, List.find?_cons, hself]

theorem disableFirst_concat {es : List StaticRoute} {r : StaticRoute}
    (h : r.key ∉ es.map (·.key)) :
    disableFirst r (es ++ [r]) = es ++ [{ r with disabled := true }] := by
  induction es with
  | nil => exact if_pos (StaticRoute.same_iff.mpr rfl)
  | cons e es ih =>
    rw [List.map_cons, List.mem_cons, not_or] at h
    rw [List.cons_append, disableFirst, if_neg (mt StaticRoute.same_iff.mp (Ne.symm h.1)),
      ih h.2]
    rfl

theorem disable_add {t : RoutingTable} {r : StaticRoute} (h : r.key ∉ t.keys) :
    (t.add r).disable r = t.add { r with disabled := true } :=
  congrArg RoutingTable.mk (disableFirst_concat h)

end RoutingTable

namespace Config

open RouterConsole.Configuration (Edited Refused)

/-- The configuration paths of some statements. -/
def paths (statements : List (List String)) : List String := statements.map unwords

theorem paths_append (s s' : List (List String)) : paths (s ++ s') = paths s ++ paths s' :=
  List.map_append

section Interfaces

variable {c : Configuration} {name : String}

theorem replays_address {admin : AdminState} (hs : c.settings name = some (none, admin))
    {a? : Option IPv4.InterfaceAddress} (hu : ∀ a, a? = some a → addressProblem? a = none) :
    ∃ c', Replays c
        (a?.map fun a => (unwords (addressWords name a), Edit.setAddress name a)).toList
        (paths (a?.map (addressWords name)).toList) [] c' ∧
      c'.routes = c.routes ∧
      ∀ n, c'.settings n = if n = name then some (a?, admin) else c.settings n := by
  cases a? with
  | none =>
    refine ⟨c, .nil c, rfl, fun n => ?_⟩
    split
    · rename_i hn
      rw [hn, hs]
    · rfl
  | some a =>
    refine ⟨c.update name (·.withAddress (some a)), ?_, rfl, fun n => ?_⟩
    · exact .applied (.setAddress hs (hu a rfl) nofun) (.nil _)
    · rw [Configuration.settings_update_address, hs]
      rfl

theorem replays_admin {a? : Option IPv4.InterfaceAddress} (hs : c.settings name = some (a?, .up))
    (admin : AdminState) :
    ∃ c', Replays c
        (if admin == .down then [(unwords (disableWords name), .disableInterface name)] else [])
        (paths (if admin == .down then [disableWords name] else [])) [] c' ∧
      c'.routes = c.routes ∧
      ∀ n, c'.settings n = if n = name then some (a?, admin) else c.settings n := by
  cases admin with
  | up =>
    refine ⟨c, .nil c, rfl, fun n => ?_⟩
    split
    · rename_i hn
      rw [hn, hs]
    · rfl
  | down =>
    refine ⟨c.update name (·.withAdmin .down), ?_, rfl, fun n => ?_⟩
    · exact .applied (.disableInterface hs) (.nil _)
    · rw [Configuration.settings_update_admin, hs]
      rfl

/-- The edits of one interface give it its settings, if it has none yet. -/
theorem replays_interface {i : Interface} (hs : c.settings i.name = some (none, .up))
    (hu : ∀ a, i.address = some a → addressProblem? a = none) :
    ∃ c', Replays c (interfaceEdits i) (paths (interfaceStatements i)) [] c' ∧
      c'.routes = c.routes ∧
      ∀ n, c'.settings n =
        if n = i.name then some (i.address, i.status.admin) else c.settings n := by
  obtain ⟨c₁, h₁, hroutes₁, hset₁⟩ := replays_address hs hu
  have hs₁ : c₁.settings i.name = some (i.address, .up) := by rw [hset₁, if_pos rfl]
  obtain ⟨c₂, h₂, hroutes₂, hset₂⟩ := replays_admin hs₁ i.status.admin
  refine ⟨c₂, ?_, hroutes₂.trans hroutes₁, fun n => ?_⟩
  · rw [interfaceStatements, paths_append]
    exact h₁.append h₂
  · rw [hset₂, hset₁]
    split <;> rfl

/-- The edits of interfaces with different names give each its settings and no other interface
any. -/
theorem replays_interfaces {is : List Interface} (hn : (is.map (·.name)).Nodup)
    (hu : Usable is) (hs : ∀ i ∈ is, c.settings i.name = some (none, .up)) :
    ∃ c', Replays c (is.flatMap interfaceEdits) (paths (is.flatMap interfaceStatements)) [] c' ∧
      c'.routes = c.routes ∧
      (∀ i ∈ is, c'.settings i.name = some (i.address, i.status.admin)) ∧
      ∀ n, n ∉ is.map (·.name) → c'.settings n = c.settings n := by
  -- The last clause carries the settings of the first interface past the edits of the others.
  induction is generalizing c with
  | nil => exact ⟨c, .nil c, rfl, nofun, fun _ _ => rfl⟩
  | cons i is ih =>
    obtain ⟨hi, his⟩ := List.nodup_cons.mp hn
    obtain ⟨c₁, h₁, hroutes₁, hset₁⟩ :=
      replays_interface (hs i List.mem_cons_self) (hu i List.mem_cons_self)
    have hother : ∀ j ∈ is, j.name ≠ i.name := fun j hj he =>
      hi (List.mem_map.mpr ⟨j, hj, he⟩)
    obtain ⟨c₂, h₂, hroutes₂, hmem₂, hrest₂⟩ := ih his
      (fun j hj => hu j (List.mem_cons_of_mem i hj)) (fun j hj => by
        rw [hset₁, if_neg (hother j hj)]
        exact hs j (List.mem_cons_of_mem i hj))
    refine ⟨c₂, ?_, hroutes₂.trans hroutes₁, fun j hj => ?_, fun n hnotin => ?_⟩
    · rw [List.flatMap_cons, List.flatMap_cons, paths_append]
      exact h₁.append h₂
    · rcases List.mem_cons.mp hj with rfl | hj
      · rw [hrest₂ _ hi, hset₁, if_pos rfl]
      · exact hmem₂ j hj
    · rw [List.map_cons, List.mem_cons, not_or] at hnotin
      rw [hrest₂ n hnotin.2, hset₁, if_neg hnotin.1]

end Interfaces

/-- The paths that a load of generated text skips: in commands, disabled routes are listed twice. -/
def skippedRoutes (format : Format) (rs : List StaticRoute) : List String :=
  match format with
  | .commands => (rs.filter (·.disabled)).map (·.configPath)
  | .hierarchical => []

theorem skippedRoutes_cons (format : Format) (r : StaticRoute) (rs : List StaticRoute) :
    skippedRoutes format (r :: rs) = skippedRoutes format [r] ++ skippedRoutes format rs := by
  cases format with
  | hierarchical => rfl
  | commands =>
    simp only [skippedRoutes]
    rw [← List.map_append, ← List.filter_append, List.singleton_append]

section Routes

variable {c : Configuration}

theorem enabled_of_enabled {r : StaticRoute} (h : r.disabled = false) : enabled r = r := by
  rw [enabled, ← h]

theorem disabled_enabled {r : StaticRoute} (h : r.disabled = true) :
    { enabled r with disabled := true } = r := by
  rw [enabled, ← h]

/-- The edits of a route that is not listed yet list it as it is. -/
theorem replays_route {r : StaticRoute} (format : Format) (hk : r.key ∉ c.routes.keys)
    (ht : ∀ name, r.target = .interface name → name ∈ c.names) :
    Replays c (routeEdits format r) (paths (routeStatements r)) (skippedRoutes format [r])
      { c with routes := c.routes.add r } := by
  have hk' : (enabled r).key ∉ c.routes.keys := hk
  have hadd : Edited c (.addRoute (enabled r)) { c with routes := c.routes.add (enabled r) } :=
    .addRoute ht hk'
  cases hd : r.disabled with
  | false =>
    have hskipped : skippedRoutes format [r] = [] := by
      cases format with
      | commands =>
        simp only [skippedRoutes, List.filter_cons, hd, Bool.false_eq_true, if_false]
        rfl
      | hierarchical => rfl
    rw [enabled_of_enabled hd] at hadd
    rw [routeEdits.eq_def, routeStatements, hd, hskipped, enabled_of_enabled hd]
    exact .applied hadd (.nil _)
  | true =>
    have hlisted : (enabled r).key ∈ (c.routes.add (enabled r)).keys := by
      rw [RoutingTable.keys_add]
      exact List.mem_append_right _ List.mem_cons_self
    have htwice : Refused { c with routes := c.routes.add (enabled r) } (.addRoute (enabled r))
        .routeExists := .routeThere ht hlisted
    have hroutes : (c.routes.add (enabled r)).disable (enabled r) = c.routes.add r := by
      rw [RoutingTable.disable_add hk', disabled_enabled hd]
    have hoff : Edited { c with routes := c.routes.add (enabled r) } (.disableRoute (enabled r))
        { c with routes := c.routes.add r } := by
      rw [← hroutes]
      exact .disableRoute (RoutingTable.find?_add hk') rfl
    rw [routeEdits.eq_def, routeStatements, hd]
    cases format with
    -- The second command lists the route again before it switches the route off.
    | commands =>
      have hskipped : skippedRoutes .commands [r] = [r.configPath] := by
        simp only [skippedRoutes, List.filter_cons, hd, if_true]
        rfl
      rw [hskipped]
      exact .applied hadd (.skipped htwice rfl (.applied hoff (.nil _)))
    | hierarchical => exact .applied hadd (.applied hoff (.nil _))

/-- The edits of different routes that are not listed yet list them in order. -/
theorem replays_routes {rs : List StaticRoute} (format : Format)
    (hn : (rs.map (·.key)).Nodup) (hk : ∀ r ∈ rs, r.key ∉ c.routes.keys)
    (ht : ∀ r ∈ rs, ∀ name, r.target = .interface name → name ∈ c.names) :
    Replays c (rs.flatMap (routeEdits format)) (paths (rs.flatMap routeStatements))
      (skippedRoutes format rs) { c with routes := ⟨c.routes.entries ++ rs⟩ } := by
  induction rs generalizing c with
  | nil =>
    rw [List.append_nil]
    cases format <;> exact .nil c
  | cons r rs ih =>
    obtain ⟨hr, hrs⟩ := List.nodup_cons.mp hn
    have h₁ := replays_route format (hk r List.mem_cons_self) (ht r List.mem_cons_self)
    have hk₁ : ∀ s ∈ rs, s.key ∉ (c.routes.add r).keys := by
      intro s hs hmem
      rw [RoutingTable.keys_add] at hmem
      rcases List.mem_append.mp hmem with hmem | hmem
      · exact hk s (List.mem_cons_of_mem r hs) hmem
      · exact hr (List.mem_map.mpr ⟨s, hs, List.mem_singleton.mp hmem⟩)
    have h₂ := ih (c := { c with routes := c.routes.add r }) hrs hk₁
      fun s hs => ht s (List.mem_cons_of_mem r hs)
    have hentries : c.routes.entries ++ r :: rs = (c.routes.add r).entries ++ rs := by
      rw [RoutingTable.add, List.append_assoc, List.singleton_append]
    rw [List.flatMap_cons, List.flatMap_cons, paths_append, skippedRoutes_cons, hentries]
    exact h₁.append h₂

end Routes

theorem find?_name_of_mem {is : List Interface} (hn : (is.map (·.name)).Nodup) {i : Interface}
    (hi : i ∈ is) : is.find? (·.name == i.name) = some i := by
  induction is with
  | nil => exact absurd hi List.not_mem_nil
  | cons j is ih =>
    obtain ⟨hj, his⟩ := List.nodup_cons.mp hn
    rcases List.mem_cons.mp hi with rfl | hi
    · simp only [List.find?_cons, beq_self_eq_true]
    · have hne : (j.name == i.name) = false :=
        beq_false_of_ne fun he => hj (List.mem_map.mpr ⟨i, hi, he.symm⟩)
      simp only [List.find?_cons, hne, ih his hi]

theorem settings_of_mem {c : Configuration} (hn : c.names.Nodup) {i : Interface}
    (hi : i ∈ c.interfaces) : c.settings i.name = some (i.address, i.status.admin) := by
  rw [Configuration.settings, Configuration.interface?, find?_name_of_mem hn hi]
  rfl

/-- The edits of a generated text can be replayed on any configuration with the same names, once it
is wiped, and leave behind what the text was generated from. The notation makes no difference to
what they leave behind. -/
theorem replays_either {c d : Configuration} (hc : c.WellFormed) (hn : c.names.Nodup)
    (hnames : ∀ n, n ∈ d.names ↔ n ∈ c.names) :
    ∃ c', (∀ format, Replays d.cleared (generatedEdits format c) (paths (statements c))
        (skippedRoutes format c.routes.entries) c') ∧
      (∀ n, c'.settings n = c.settings n) ∧ c'.routes.entries = c.routes.entries := by
  have hcleared : ∀ i ∈ c.interfaces, d.cleared.settings i.name = some (none, .up) := by
    intro i hi
    rw [Configuration.settings_cleared, if_pos]
    exact (hnames _).mpr (List.mem_map_of_mem hi)
  obtain ⟨c₁, h₁, hroutes₁, hmem₁, hrest₁⟩ := replays_interfaces hn hc.usable hcleared
  have hsettings : ∀ n, c₁.settings n = c.settings n := by
    intro n
    by_cases hn' : n ∈ c.names
    · obtain ⟨i, hi, rfl⟩ := List.mem_map.mp hn'
      rw [hmem₁ i hi, settings_of_mem hn hi]
    · have hd : n ∉ d.cleared.names := by
        rw [Configuration.names_cleared, hnames]
        exact hn'
      rw [hrest₁ n hn', Configuration.settings_eq_none_iff.mpr hn',
        Configuration.settings_eq_none_iff.mpr hd]
  have hknown : ∀ n, n ∈ c.names → n ∈ c₁.names := by
    intro n hn'
    obtain ⟨i, hi, rfl⟩ := List.mem_map.mp hn'
    exact Configuration.mem_names_of_settings (hmem₁ i hi)
  have hempty : ∀ r ∈ c.routes.entries, r.key ∉ c₁.routes.keys := by
    intro r _ hk
    rw [hroutes₁] at hk
    exact List.not_mem_nil hk
  refine ⟨{ c₁ with routes := ⟨c₁.routes.entries ++ c.routes.entries⟩ }, fun format => ?_,
    hsettings, ?_⟩
  · have h₂ := replays_routes format hc.keys_nodup hempty fun r hr name ht =>
      hknown name (hc.targets r.key (List.mem_map_of_mem hr) name ht)
    rw [statements, paths_append]
    exact h₁.append h₂
  · rw [hroutes₁]
    rfl

theorem replays_generated {c d : Configuration} (hc : c.WellFormed) (hn : c.names.Nodup)
    (hnames : ∀ n, n ∈ d.names ↔ n ∈ c.names) (format : Format) :
    ∃ c', Replays d.cleared (generatedEdits format c) (paths (statements c))
        (skippedRoutes format c.routes.entries) c' ∧
      (∀ n, c'.settings n = c.settings n) ∧ c'.routes.entries = c.routes.entries := by
  obtain ⟨c', h, hsettings, hroutes⟩ := replays_either hc hn hnames
  exact ⟨c', h format, hsettings, hroutes⟩

/-- The configuration of a reachable router can be written, if the names of its interfaces are plain
words. -/
theorem writable_committed {name : String} {is : List Interface} {r : Router}
    (h : ReachableFrom (.new name is) r) (hu : Usable is) (hp : ∀ i ∈ is, PlainWord i.name)
    {names : List String} (hnames : ∀ n, n ∈ names ↔ n ∈ r.committed.names) :
    Writable names r.committed := by
  have hknown : ∀ i ∈ is, i.name ∈ names ∧ PlainWord i.name := fun i hi =>
    ⟨(hnames _).mpr (h.named.committed ▸ List.mem_map_of_mem hi), hp i hi⟩
  obtain ⟨hown, htargets⟩ := h.forall_names (P := fun n => n ∈ names ∧ PlainWord n) hu hknown
  exact ⟨fun i hi => (hown i hi).2, fun i hi => (hown i hi).1, htargets⟩

/-- The text that is generated from a reachable router loads into every reachable router whose
interfaces have the same names and which has no waiting edits, in the notation that the text is in
or the one that it shows. The names must be words without braces; they are never empty, since
`checkText` refuses an interface without a name. Afterwards the other router has the same address
and administrative state under each name and the same routes in the same order. The report lists
the commands of the first router as applied; what it lists as skipped are, for commands alone, the
paths of the disabled routes, which commands list twice. -/
theorem load_generate {name : String} {is : List Interface} {source : Router}
    (hsource : ReachableFrom (.new name is) source) (hnodup : (is.map (·.name)).Nodup)
    (hplain : ∀ i ∈ is, PlainWord i.name) (husable : Usable is) {name' : String}
    {is' : List Interface} {target : Router} (htarget : ReachableFrom (.new name' is') target)
    (hclean : target.dirty = false)
    (hnames : ∀ n, n ∈ target.committed.names ↔ n ∈ source.committed.names) (format : Format)
    {format? : Option Format} (hformat : format? = some format ∨ format? = none) :
    ∃ report,
      (load target (generate format source.committed) format?).result = .ok report ∧
        (∀ n, (load target (generate format source.committed) format?).router.committed.settings n =
          source.committed.settings n) ∧
        (load target (generate format source.committed) format?).router.committed.routes.entries =
          source.committed.routes.entries ∧
        report.applied.map ("set " ++ ·) = commands source.committed ∧
        report.skipped =
          match format with
          | .commands => (source.committed.routes.entries.filter (·.disabled)).map (·.configPath)
          | .hierarchical => [] := by
  have hwritable := writable_committed hsource husable hplain hnames
  have hn : source.committed.names.Nodup := by
    rw [hsource.named.committed]
    exact hnodup
  obtain ⟨ds, hparse, hedits⟩ := parse_generate hwritable format hformat
  obtain ⟨c', hreplays, hsettings, hroutes⟩ :=
    replays_generated (hsource.wellFormed husable).committed hn hnames format
  obtain ⟨hrouter, hresult⟩ :=
    load_of_replays htarget.synced hclean hparse (hedits ▸ hreplays)
  refine ⟨_, hresult, ?_⟩
  rw [hrouter]
  refine ⟨hsettings, hroutes, ?_, ?_⟩
  · rw [commands_eq, paths, List.map_map]
    refine List.map_congr_left fun path hp => ?_
    exact (command_eq (plainWord_statement hwritable hp).1).symm
  · cases format <;> rfl

/-- A disabled route and an address, moved to a new router by commands whose notation is
detected. -/
theorem load_generate_disabled_route :
    let is : List Interface := [.fresh "eth0" ⟨.replicate 6 2⟩]
    let route : StaticRoute :=
      { destination := ⟨.ofNat 0x0A010000, 16, by decide⟩, target := .interface "eth0" }
    let source := (Router.new "edge" is).run [.setMode .configuration,
      .edit (.setAddress "eth0" ⟨.ofNat 0x0A000001, 24⟩), .edit (.addRoute route),
      .edit (.disableRoute route), .commit]
    let text := generate .commands source.committed
    let target := Router.new "core" is
    ∃ report, (load target text).result = .ok report ∧
      (load target text).router.committed.settings "eth0" =
        some (some ⟨.ofNat 0x0A000001, 24⟩, .up) ∧
      (load target text).router.committed.routes.entries = [{ route with disabled := true }] ∧
      report.skipped = ["protocols static route 10.1.0.0/16 interface eth0"] := by
  intro is route source text target
  have hsource : ReachableFrom (.new "edge" is) source := ReachableFrom.refl.run _
  have htarget : ReachableFrom (.new "core" is) target := .refl
  have husable : Usable is := by
    intro i hi a ha
    rw [List.mem_singleton.mp hi] at ha
    cases ha
  have hnames : target.committed.names = source.committed.names := by decide +kernel
  have hsettings : source.committed.settings "eth0" = some (some ⟨.ofNat 0x0A000001, 24⟩, .up) := by
    decide +kernel
  have hroutes : source.committed.routes.entries = [{ route with disabled := true }] := by
    decide +kernel
  obtain ⟨report, hresult, hset, hentries, -, hskipped⟩ :=
    load_generate hsource (by decide) (by decide) husable htarget rfl
      (fun n => by rw [hnames]) .commands (.inr rfl)
  have hpath : report.skipped = [{ route with disabled := true }.configPath] := by
    rw [hskipped, hroutes]
    rfl
  have hone : { route with disabled := true }.configPath =
      "protocols static route 10.1.0.0/16 interface eth0" := by decide +kernel
  rw [hone] at hpath
  refine ⟨report, hresult, ?_, ?_, hpath⟩
  · rw [hset, hsettings]
  · rw [hentries, hroutes]

end Config

end RouterConsole
