import RouterConsole.Config.Generate
import RouterConsole.Proofs.Config.Acceptance
import RouterConsole.Proofs.Config.Notation
import RouterConsole.Proofs.Config.Replay

/-!
# Generated commands are read back

A configuration is written as statements, and what is written says the edits that carry these
statements out (`Says`), each edit under its own path. In commands a statement is one line, so the
lines of a generated text have the words of the statements, and the text is read back as their
edits; nested blocks say the same edits once each.
-/
namespace RouterConsole.Config

open Text (IsWord unwords words)

/-! ## Paths and what they say -/

/-- The directives of some paths carry out the given edits. -/
def Says (names : List String) (paths : List (List Token)) (es : List (String × Edit)) : Prop :=
  ∃ ds, paths.mapM (interpret names) = .ok ds ∧ edits (ds.filterMap id) = es

section Says

variable {names : List String} {paths paths' : List (List Token)} {es es' : List (String × Edit)}

theorem says_nil : Says names [] [] := ⟨[], rfl, rfl⟩

theorem edits_of_says_nil (h : Says names [] es) : es = [] := by
  obtain ⟨ds, hds, rfl⟩ := h
  obtain rfl := Except.ok.inj hds
  rfl

theorem Says.append (h : Says names paths es) (h' : Says names paths' es') :
    Says names (paths ++ paths') (es ++ es') := by
  obtain ⟨ds, hds, rfl⟩ := h
  obtain ⟨ds', hds', rfl⟩ := h'
  refine ⟨ds ++ ds', ?_, ?_⟩
  · rw [List.mapM_append, hds, hds']
    rfl
  · rw [List.filterMap_append, edits, List.flatMap_append, edits, edits]

theorem says_directive {path : List Token} {d : Directive}
    (h : interpret names path = .ok (some d)) : Says names [path] d.edits := by
  refine ⟨[some d], ?_, ?_⟩
  · rw [List.mapM_cons, h]
    rfl
  · rw [List.filterMap_cons_some (f := id) rfl, List.filterMap_nil, edits, List.flatMap_cons,
      List.flatMap_nil, List.append_nil]

end Says

/-- The edits that give an interface its settings. -/
def interfaceEdits (i : Interface) : List (String × Edit) :=
  (i.address.map fun a => (unwords (addressWords i.name a), Edit.setAddress i.name a)).toList ++
    if i.isAdminDown then [(unwords (disableWords i.name), .disableInterface i.name)] else []

/-- A route before it is switched off. -/
def enabled (r : StaticRoute) : StaticRoute := { r with disabled := false }

/-- The edits that list a route. Commands list a disabled route twice, the second time to switch it
off; a block lists it once. -/
def routeEdits (format : Format) (r : StaticRoute) : List (String × Edit) :=
  (r.configPath, .addRoute (enabled r)) ::
    if r.disabled then
      (match format with
        | .commands => [(r.configPath, .addRoute (enabled r))]
        | .hierarchical => []) ++
        [(unwords (disableRouteWords r), .disableRoute (enabled r))]
    else []

/-- The edits that a generated text asks for. -/
def generatedEdits (format : Format) (c : Configuration) : List (String × Edit) :=
  c.interfaces.flatMap interfaceEdits ++ c.routes.entries.flatMap (routeEdits format)

/-- The interfaces of a configuration, and those that its routes leave by, have these names. -/
structure Known (names : List String) (c : Configuration) : Prop where
  own : ∀ i ∈ c.interfaces, i.name ∈ names
  targets : ∀ r ∈ c.routes.entries, ∀ name, r.target = .interface name → name ∈ names

/-- A configuration whose generated text can be read back: every interface has a plain name and
routes leave only by interfaces that are there. -/
structure Writable (names : List String) (c : Configuration) : Prop where
  plain : ∀ i ∈ c.interfaces, PlainWord i.name
  known : ∀ i ∈ c.interfaces, i.name ∈ names
  targets : ∀ r ∈ c.routes.entries, ∀ name, r.target = .interface name →
    name ∈ names ∧ PlainWord name

theorem Writable.toKnown {names : List String} {c : Configuration} (h : Writable names c) :
    Known names c where
  own := h.known
  targets r hr name ht := (h.targets r hr name ht).1

section Statements

variable {names : List String}

theorem says_address {path : List Token} {i : String} {a : IPv4.InterfaceAddress}
    (h : values path = addressWords i a) (hi : i ∈ names) :
    Says names [path] [(unwords (addressWords i a), .setAddress i a)] := by
  obtain ⟨t, ht⟩ := interpret_addressWords h hi
  exact says_directive ht

theorem says_disable {path : List Token} {i : String} (h : values path = disableWords i)
    (hi : i ∈ names) : Says names [path] [(unwords (disableWords i), .disableInterface i)] := by
  obtain ⟨t, ht⟩ := interpret_disableWords h hi
  exact says_directive ht

theorem says_route {path : List Token} {r : StaticRoute} {disable : Bool}
    (h : values path = r.pathWords ++ if disable then ["disable"] else [])
    (hn : ∀ name, r.target = .interface name → name ∈ names) :
    Says names [path] ((r.configPath, .addRoute (enabled r)) ::
      if disable then [(unwords (disableRouteWords r), .disableRoute (enabled r))] else []) := by
  obtain ⟨t, ht⟩ := interpret_routeWords h hn
  exact says_directive ht

theorem says_interface {paths : List (List Token)} {i : Interface} (hi : i.name ∈ names)
    (h : paths.map values = interfaceStatements i) : Says names paths (interfaceEdits i) := by
  obtain ⟨ps, qs, rfl, hps, hqs⟩ := List.map_eq_append_iff.mp h
  apply Says.append
  · cases ha : i.address with
    | none =>
      rw [ha] at hps
      rw [List.map_eq_nil_iff.mp hps]
      exact says_nil
    | some a =>
      rw [ha] at hps
      obtain ⟨path, rfl, hpath⟩ := List.map_eq_singleton_iff.mp hps
      exact says_address hpath hi
  · split at hqs
    · rename_i hdown
      obtain ⟨path, rfl, hpath⟩ := List.map_eq_singleton_iff.mp hqs
      rw [if_pos hdown]
      exact says_disable hpath hi
    · rename_i hdown
      rw [if_neg hdown, List.map_eq_nil_iff.mp hqs]
      exact says_nil

/-- A disabled route has two commands, so its first one is heard twice. -/
theorem says_routeCommands {paths : List (List Token)} {r : StaticRoute}
    (hn : ∀ name, r.target = .interface name → name ∈ names)
    (h : paths.map values = routeStatements r) : Says names paths (routeEdits .commands r) := by
  rw [routeStatements] at h
  obtain ⟨path, qs, rfl, hpath, hqs⟩ := List.map_eq_cons_iff.mp h
  have hlisted : Says names [path] [(r.configPath, .addRoute (enabled r))] :=
    says_route (r := r) (show values path = r.pathWords ++ if false then ["disable"] else [] by
      rw [hpath, if_neg Bool.false_ne_true, List.append_nil]) hn
  rw [routeEdits]
  split at hqs
  · rename_i hd
    obtain ⟨path', rfl, hpath'⟩ := List.map_eq_singleton_iff.mp hqs
    have hdisabled : Says names [path'] [(r.configPath, .addRoute (enabled r)),
        (unwords (disableRouteWords r), .disableRoute (enabled r))] :=
      says_route (r := r) (show values path' = r.pathWords ++ if true then ["disable"] else [] from
        hpath') hn
    rw [if_pos hd]
    exact hlisted.append hdisabled
  · rename_i hd
    rw [if_neg hd, List.map_eq_nil_iff.mp hqs]
    exact hlisted

/-- What is said of each member of a list is said of the list. -/
theorem says_flatMap {α : Type} {l : List α} {statements : α → List (List String)}
    {es : α → List (String × Edit)}
    (hs : ∀ a ∈ l, ∀ ps : List (List Token), ps.map values = statements a → Says names ps (es a))
    {paths : List (List Token)} (h : paths.map values = l.flatMap statements) :
    Says names paths (l.flatMap es) := by
  induction l generalizing paths with
  | nil =>
    rw [List.map_eq_nil_iff.mp h]
    exact says_nil
  | cons a l ih =>
    rw [List.flatMap_cons] at h ⊢
    obtain ⟨ps, qs, rfl, hps, hqs⟩ := List.map_eq_append_iff.mp h
    have hrest := ih (fun b hb => hs b (List.mem_cons_of_mem a hb)) hqs
    exact (hs a List.mem_cons_self ps hps).append hrest

/-- The statements of a configuration, in load order. -/
def statements (c : Configuration) : List (List String) :=
  c.interfaces.flatMap interfaceStatements ++ c.routes.entries.flatMap routeStatements

theorem commands_eq (c : Configuration) : commands c = (statements c).map command := by
  rw [commands, interfaceCommands, routeCommands, statements, List.map_append]

theorem says_statements {c : Configuration} (hc : Known names c) {paths : List (List Token)}
    (h : paths.map values = statements c) : Says names paths (generatedEdits .commands c) := by
  obtain ⟨ps, qs, rfl, hps, hqs⟩ := List.map_eq_append_iff.mp h
  have his := says_flatMap (fun i hi _ hp => says_interface (hc.own i hi) hp) hps
  have hrs := says_flatMap (fun r hr _ hp => says_routeCommands (hc.targets r hr) hp) hqs
  exact his.append hrs

end Statements

/-! ## Commands -/

theorem commandPaths_of_values {ls : List (List Token)} {paths : List (List String)}
    (h : ls.map values = paths.map ("set" :: ·)) (hne : [] ∉ paths) :
    ∃ ps, commandPaths ls = ⟨ps, none⟩ ∧ ps.map values = paths := by
  induction paths generalizing ls with
  | nil =>
    rw [List.map_eq_nil_iff.mp h]
    exact ⟨[], rfl, rfl⟩
  | cons path paths ih =>
    obtain ⟨l, ls, rfl, hl, hls⟩ := List.map_eq_cons_iff.mp h
    obtain ⟨t, ts, rfl, ht, hts⟩ := values_eq_cons_iff.mp hl
    obtain ⟨ps, hps, hvalues⟩ := ih hls fun hn => hne (List.mem_cons_of_mem path hn)
    have hpath : ts ≠ [] := by
      rintro rfl
      exact hne (hts ▸ List.mem_cons_self)
    refine ⟨ts :: ps, ?_, ?_⟩
    · rw [commandPaths, commandPath, if_neg (by simp [ht]), if_neg hpath, hps]
      rfl
    · rw [List.map_cons, hts, hvalues]

section Lines

variable {paths : List (List String)}

theorem command_eq {path : List String} (h : path ≠ []) :
    command path = "set " ++ unwords path := by
  have hset : "set " = "set" ++ " " := by decide
  rw [command, Text.unwords, String.intercalate_cons_of_ne_nil h, hset, Text.unwords]

theorem isWord_command {path : List String} (h : ∀ w ∈ path, IsWord w.toList) :
    ∀ w ∈ "set" :: path, IsWord w.toList := by
  intro w hw
  rcases List.mem_cons.mp hw with rfl | hw
  · decide
  · exact h w hw

theorem words_command {path : List String} (h : ∀ w ∈ path, IsWord w.toList) :
    words (command path) = "set" :: path := Text.words_unwords (isWord_command h)

theorem readable_commands (hw : ∀ path ∈ paths, ∀ w ∈ path, IsWord w.toList) :
    ∀ line ∈ paths.map command, Readable line := by
  intro line hline
  obtain ⟨path, hp, rfl⟩ := List.mem_map.mp hline
  exact readable_unwords (isWord_command (hw path hp)) (by decide)

theorem words_commands (hw : ∀ path ∈ paths, ∀ w ∈ path, IsWord w.toList) :
    (paths.map command).map words = paths.map ("set" :: ·) := by
  rw [List.map_map]
  exact List.map_congr_left fun path hp => words_command (hw path hp)

theorem values_of_lines (hw : ∀ path ∈ paths, ∀ w ∈ path, IsWord w.toList) :
    (tokenize (Text.unlines (paths.map command))).map values = paths.map ("set" :: ·) := by
  rw [values_tokenize (readable_commands hw), words_commands hw]

/-- Paths that are written as commands are read back. -/
theorem readPaths_commands (hw : ∀ path ∈ paths, ∀ w ∈ path, IsWord w.toList)
    (hne : [] ∉ paths) :
    ∃ ps, readPaths .commands (Text.unlines (paths.map fun path => "set " ++ unwords path)) =
      ⟨ps, none⟩ ∧ ps.map values = paths := by
  have hlines : paths.map (fun path => "set " ++ unwords path) = paths.map command :=
    List.map_congr_left fun path hp => (command_eq fun hn => hne (hn ▸ hp)).symm
  rw [hlines]
  exact commandPaths_of_values (values_of_lines hw) hne

end Lines

/-! Statements are made of plain words and of the names of interfaces, so that what holds of both
holds of all their words. -/

section Words

variable {P : String → Prop} (hP : ∀ w, PlainWord w → P w) {path : List String}

include hP

theorem forall_addressWords {i : String} (hi : P i) (a : IPv4.InterfaceAddress) :
    ∀ w ∈ addressWords i a, P w := by
  simp only [addressWords, List.forall_mem_cons]
  exact ⟨hP _ (by decide), hP _ (by decide), hi, hP _ (by decide), hP _ a.plainWord_text, nofun⟩

theorem forall_disableWords {i : String} (hi : P i) : ∀ w ∈ disableWords i, P w := by
  simp only [disableWords, List.forall_mem_cons]
  exact ⟨hP _ (by decide), hP _ (by decide), hi, hP _ (by decide), nofun⟩

theorem forall_interfaceStatement {i : Interface} (hi : P i.name)
    (h : path ∈ interfaceStatements i) : ∀ w ∈ path, P w := by
  rcases List.mem_append.mp h with h | h
  · obtain ⟨a, -, rfl⟩ := Option.map_eq_some_iff.mp (Option.mem_toList.mp h)
    exact forall_addressWords hP hi a
  · split at h
    · rw [List.mem_singleton.mp h]
      exact forall_disableWords hP hi
    · exact absurd h List.not_mem_nil

theorem forall_target {t : RouteTarget} (h : ∀ name, t = .interface name → P name) :
    ∀ w ∈ t.words, P w := by
  cases t with
  | nextHop g =>
    have hplain : ∀ w ∈ (RouteTarget.nextHop g).words, PlainWord w :=
      plainWord_pair (by decide) g.plainWord_text
    exact fun w hw => hP w (hplain w hw)
  | interface name =>
    intro w hw
    rcases List.mem_cons.mp hw with rfl | hw
    · exact hP _ (by decide)
    · rw [List.mem_singleton.mp hw]
      exact h name rfl

theorem forall_pathWords {r : StaticRoute} (h : ∀ name, r.target = .interface name → P name) :
    ∀ w ∈ r.pathWords, P w := by
  have hhead : ∀ w ∈ ["protocols", "static", "route", r.destination.text], PlainWord w := by
    simp only [List.forall_mem_cons]
    exact ⟨by decide, by decide, by decide, r.destination.plainWord_text, nofun⟩
  have hdistance : ∀ w ∈ ["distance", toString r.distance.toNat], PlainWord w :=
    plainWord_pair (by decide) r.distance.plainWord_toString
  intro w hw
  rw [StaticRoute.pathWords] at hw
  rcases List.mem_append.mp hw with hw | hw
  · rcases List.mem_append.mp hw with hw | hw
    · exact hP w (hhead w hw)
    · exact forall_target hP h w hw
  · split at hw
    · exact absurd hw List.not_mem_nil
    · exact hP w (hdistance w hw)

theorem forall_disableRouteWords {r : StaticRoute}
    (h : ∀ name, r.target = .interface name → P name) : ∀ w ∈ disableRouteWords r, P w := by
  intro w hw
  rcases List.mem_append.mp hw with hw | hw
  · exact forall_pathWords hP h w hw
  · rw [List.mem_singleton.mp hw]
    exact hP _ (by decide)

theorem forall_routeStatement {r : StaticRoute}
    (hr : ∀ name, r.target = .interface name → P name) (h : path ∈ routeStatements r) :
    ∀ w ∈ path, P w := by
  rcases List.mem_cons.mp h with rfl | h
  · exact forall_pathWords hP hr
  · split at h
    · rw [List.mem_singleton.mp h]
      exact forall_disableRouteWords hP hr
    · exact absurd h List.not_mem_nil

theorem forall_statement {c : Configuration} (hi : ∀ i ∈ c.interfaces, P i.name)
    (ht : ∀ r ∈ c.routes.entries, ∀ name, r.target = .interface name → P name)
    (h : path ∈ statements c) : ∀ w ∈ path, P w := by
  rcases List.mem_append.mp h with h | h
  · obtain ⟨i, hmem, hp⟩ := List.mem_flatMap.mp h
    exact forall_interfaceStatement hP (hi i hmem) hp
  · obtain ⟨r, hmem, hp⟩ := List.mem_flatMap.mp h
    exact forall_routeStatement hP (ht r hmem) hp

end Words

theorem plainWord_target {t : RouteTarget} (h : ∀ name, t = .interface name → PlainWord name) :
    ∀ w ∈ t.words, PlainWord w := forall_target (fun _ hw => hw) h

/-- Every statement says something. -/
theorem ne_nil_of_mem_statements {c : Configuration} {path : List String}
    (h : path ∈ statements c) : path ≠ [] := by
  rcases List.mem_append.mp h with h | h
  · obtain ⟨i, -, h⟩ := List.mem_flatMap.mp h
    rcases List.mem_append.mp h with h | h
    · obtain ⟨a, -, rfl⟩ := Option.map_eq_some_iff.mp (Option.mem_toList.mp h)
      exact List.cons_ne_nil _ _
    · split at h
      · rw [List.mem_singleton.mp h]
        exact List.cons_ne_nil _ _
      · exact absurd h List.not_mem_nil
  · obtain ⟨r, -, h⟩ := List.mem_flatMap.mp h
    rcases List.mem_cons.mp h with rfl | h
    · exact List.cons_ne_nil _ _
    · split at h
      · rw [List.mem_singleton.mp h]
        exact List.cons_ne_nil _ _
      · exact absurd h List.not_mem_nil

theorem plainWord_statement {names : List String} {c : Configuration} (hc : Writable names c)
    {path : List String} (h : path ∈ statements c) : path ≠ [] ∧ ∀ w ∈ path, PlainWord w :=
  ⟨ne_nil_of_mem_statements h, forall_statement (fun _ hw => hw) hc.plain
    (fun r hr name ht => (hc.targets r hr name ht).2) h⟩

theorem readable_of_plain {w : String} {ws : List String} (h : ∀ v ∈ w :: ws, PlainWord v)
    (hw : w.toList.head? ≠ some '#') : Readable (unwords (w :: ws)) :=
  readable_unwords (fun v hv => (h v hv).word) hw

theorem words_of_plain {ws : List String} (h : ∀ v ∈ ws, PlainWord v) : words (unwords ws) = ws :=
  Text.words_unwords fun v hv => (h v hv).word

/-- Paths that say something are the directives of their text. -/
theorem parse_of_says {format : Format} {names : List String} {text : String}
    {ps : List (List Token)} {es : List (String × Edit)} (hr : readPaths format text = ⟨ps, none⟩)
    (h : Says names ps es) : ∃ ds, parse format names text = .ok ds ∧ edits ds = es := by
  obtain ⟨ds, hds, hes⟩ := h
  refine ⟨ds.filterMap id, ?_, hes⟩
  rw [parse, hr]
  simp only [hds]

/-- Whether a brace is opened in some words. -/
def opensBlock (ws : List String) : Bool := ws.any (·.toList.contains '\x7b')

theorem detectFormat_eq (text : String) :
    detectFormat text =
      if ((tokenize text).map values).any opensBlock then .hierarchical else .commands := by
  have hline : opensBlock ∘ values = fun ts => ts.any (·.value.toList.contains '\x7b') := by
    funext ts
    simp only [Function.comp, opensBlock, values, List.any_map]
    rfl
  rw [detectFormat, List.any_map, hline]

theorem opensBlock_of_plain {ws : List String} (h : ∀ w ∈ ws, PlainWord w) :
    opensBlock ws = false := by
  refine List.any_eq_false.mpr fun w hw hc => (h w hw).no_open ?_
  exact List.contains_iff_mem.mp hc

section Commands

variable {names : List String} {c : Configuration}

theorem plainWord_command (hc : Writable names c) {path : List String} (h : path ∈ statements c) :
    ∀ w ∈ "set" :: path, PlainWord w := by
  intro w hw
  rcases List.mem_cons.mp hw with rfl | hw
  · decide
  · exact (plainWord_statement hc h).2 w hw

theorem isWord_statement (hc : Writable names c) :
    ∀ path ∈ statements c, ∀ w ∈ path, IsWord w.toList := fun _ hp w hw =>
  ((plainWord_statement hc hp).2 w hw).word

theorem values_of_commands (hc : Writable names c) :
    (tokenize (generate .commands c)).map values = (statements c).map ("set" :: ·) := by
  rw [generate, commands_eq]
  exact values_of_lines (isWord_statement hc)

/-- A text is read as the edits of a configuration if its lines have the words of the commands. -/
theorem parse_of_statements (hc : Known names c) {text : String}
    (h : (tokenize text).map values = (statements c).map ("set" :: ·)) :
    ∃ ds, parse .commands names text = .ok ds ∧ edits ds = generatedEdits .commands c := by
  obtain ⟨ps, hps, hvalues⟩ := commandPaths_of_values h fun hn =>
    ne_nil_of_mem_statements hn rfl
  exact parse_of_says hps (says_statements hc hvalues)

theorem parse_commands (hc : Writable names c) :
    ∃ ds, parse .commands names (generate .commands c) = .ok ds ∧
      edits ds = generatedEdits .commands c :=
  parse_of_statements hc.toKnown (values_of_commands hc)

theorem detectFormat_commands (hc : Writable names c) :
    detectFormat (generate .commands c) = .commands := by
  have hplain : ((statements c).map ("set" :: ·)).any opensBlock = false := by
    rw [List.any_map]
    refine List.any_eq_false.mpr fun path hp => ?_
    rw [Function.comp, opensBlock_of_plain (plainWord_command hc hp)]
    exact Bool.false_ne_true
  rw [detectFormat_eq, values_of_commands hc, hplain, if_neg Bool.false_ne_true]

end Commands

end RouterConsole.Config
