import RouterConsole.Proofs.Shell.Prompt

/-!
# One line, typed or in a file

A line that starts with `set` is understood twice: typed, it calls a command, which reads its
values one by one; in a file, it is a path, which the grammar reads token by token. Both read the
same directive from it (`Command.interpret_of_matchWords`). A command does one edit where the
directive of a route that is switched off has two; so the two agree on the router as far as the
first of these has nothing to do.
-/
namespace RouterConsole

/-! ## The edits of a directive -/

namespace Config

/-- The edit that a directive ends with. -/
def Directive.lastEdit : Directive → Edit
  | .address i a _ => .setAddress i a
  | .disable i _ => .disableInterface i
  | .route r off _ => if off then .disableRoute r else .addRoute r

/-- A directive has one edit, unless it switches a route off, which it adds before. -/
theorem Directive.edits_eq (d : Directive) : ∃ path, d.edits = [(path, d.lastEdit)] ∨
    ∃ asked t, d = .route asked true t ∧
      d.edits = [(asked.configPath, .addRoute asked), (path, d.lastEdit)] := by
  cases d with
  | address i a t => exact ⟨_, .inl rfl⟩
  | disable i t => exact ⟨_, .inl rfl⟩
  | route asked off t =>
    cases off with
    | false => exact ⟨_, .inl rfl⟩
    | true => exact ⟨_, .inr ⟨asked, t, rfl, rfl⟩⟩

section Edits

variable {r : Router}

theorem applyEdits_singleton (token : Token) (report : Report) (path : String) (e : Edit) :
    (applyEdits token report r [(path, e)]).1 = (r.edit e).toOption.getD r := by
  unfold applyEdits
  cases r.edit e with
  | ok r' => rfl
  | error err =>
    dsimp only
    split <;> rfl

/-- A route that is listed is skipped. -/
theorem applyEdits_listed (hm : r.mode = .configuration) {asked : StaticRoute}
    (hlisted : r.staged.routes.contains asked = true)
    (hn : ∀ name, asked.target = .interface name → name ∈ r.staged.names) (token : Token)
    (report : Report) (path : String) (es : List (String × Edit)) :
    applyEdits token report r ((path, .addRoute asked) :: es) =
      applyEdits token (report.extend [] [path]) r es := by
  have hrefused : Configuration.Refused r.staged (.addRoute asked) .routeExists :=
    .routeThere hn (RoutingTable.contains_iff.mp hlisted)
  have hedit : r.edit (.addRoute asked) = .error .routeExists := by
    rw [Router.edit_of_configuration hm, hrefused.edit_eq]
    rfl
  have hreport : ({ report with skipped := report.skipped ++ [path] } : Report) =
      report.extend [] [path] := by simp only [Report.extend, List.append_nil]
  rw [applyEdits.eq_def]
  simp only [hedit, RouterError.isDuplicate, if_true, hreport]

/-- A directive is carried out by its last edit, once the route that it switches off is listed. -/
theorem applyEdits_directive (hm : r.mode = .configuration) {d : Directive}
    (hfits : d.Fits r.staged.names)
    (hlisted : ∀ asked t, d = .route asked true t → r.staged.routes.contains asked = true)
    (token : Token) (report : Report) :
    (applyEdits token report r d.edits).1 = (r.edit d.lastEdit).toOption.getD r ∧
      ∃ before path report', d.edits = before ++ [(path, d.lastEdit)] ∧
        applyEdits token report r before = (r, .ok report') := by
  obtain ⟨path, hedits | ⟨asked, t, rfl, hedits⟩⟩ := d.edits_eq
  · rw [hedits]
    exact ⟨applyEdits_singleton token report path _, [], path, report, rfl, rfl⟩
  · have hskipped :=
      applyEdits_listed hm (hlisted asked t rfl) hfits.2 token report asked.configPath
    rw [hedits, hskipped]
    exact ⟨applyEdits_singleton token _ path _, [_], path, _, rfl, hskipped []⟩

end Edits

/-- The words of a line, on a line of their own, are read as one path. -/
theorem parse_words {line w : String} {ws : List String} (h : Text.words line = "set" :: w :: ws) :
    ∃ path, values path = w :: ws ∧ ∀ names,
      parse .commands names (Text.unwords (Text.words line)) =
        (interpret names path).map Option.toList := by
  have hword : ∀ v ∈ "set" :: w :: ws, Text.IsWord v.toList := fun v hv =>
    Text.isWord_of_mem_words (h ▸ hv)
  have hread : ∀ l ∈ [Text.unwords ("set" :: w :: ws)], Readable l :=
    List.forall_mem_singleton.mpr (readable_unwords hword (by decide))
  have hvalues := values_tokenize_intercalate hread
  rw [String.intercalate_singleton, List.map_singleton, Text.words_unwords hword] at hvalues
  obtain ⟨paths, hpaths, hps⟩ : ∃ ps, commandPaths _ = ⟨ps, none⟩ ∧ ps.map values = [w :: ws] :=
    commandPaths_of_values hvalues (by simp)
  obtain ⟨path, rfl, hpath⟩ := List.map_eq_singleton_iff.mp hps
  refine ⟨path, hpath, fun names => ?_⟩
  have hreading : readPaths .commands (Text.unwords ("set" :: w :: ws)) = ⟨[path], none⟩ :=
    hpaths
  rw [h, parse, hreading]
  dsimp only
  rw [List.mapM_cons]
  cases interpret names path with
  | error e => rfl
  | ok d? => cases d? <;> rfl

end Config

namespace Shell

open Config (Directive OptionWords RouteOption TargetWords Token applyEdits interpret
  interpret_eq_ok_iff lastDistance parse parse_words values)

/-! ## Routes -/

namespace RouteCommand

variable {c : RouteCommand} {args : Arguments} {ws : List String}

/-- The words of a route command behind its target. -/
def optionWords (c : RouteCommand) (distance : String) : List String :=
  (if c.withDistance then ["distance", distance] else []) ++
    if c.action = .disable then ["disable"] else []

/-- What the grammar makes of these words. -/
def options (c : RouteCommand) (d : Distance) : List RouteOption :=
  (if c.withDistance then [.distance d] else []) ++ if c.action = .disable then [.disable] else []

/-- The words that fit what stands behind the target, and what they give to its placeholder. -/
theorem of_matchWords_options (h : Pattern.matchWords
      ((if c.withDistance then [.keyword "distance", .slot "distance"] else []) ++
        if c.action = .disable then [.keyword "disable"] else []) ws = some args) :
    ∃ distance, ws = c.optionWords distance ∧
      args = if c.withDistance then [("distance", distance)] else [] := by
  have hdisable : ∀ ws args, Pattern.matchWords
      (if c.action = .disable then [.keyword "disable"] else []) ws = some args →
        (ws = if c.action = .disable then ["disable"] else []) ∧ args = [] := by
    intro ws args h
    split at h <;> simp_all [Pattern.matchWords_keyword_iff, Pattern.matchWords_nil_iff]
  unfold optionWords
  cases hw : c.withDistance with
  | false =>
    rw [hw] at h
    exact ⟨"", hdisable ws args h⟩
  | true =>
    simp only [hw, PatternWord.slot, if_true, List.cons_append, List.nil_append,
      Pattern.matchWords_keyword_iff, Pattern.matchWords_placeholder_iff] at h
    obtain ⟨_, rfl, distance, ws, args, rfl, hrest, rfl⟩ := h
    obtain ⟨rfl, rfl⟩ := hdisable ws args hrest
    exact ⟨distance, rfl, rfl⟩

/-- The words that fit a route command, and what they give to its placeholders. -/
theorem of_matchWords (h : Pattern.matchWords c.patternWords ws = some args) :
    ∃ destination target distance,
      ws = c.action.verb :: "protocols" :: "static" :: "route" :: destination :: c.via.word ::
        target :: c.optionWords distance ∧
      args = ("destination", destination) :: (c.via.argument, target) ::
        if c.withDistance then [("distance", distance)] else [] := by
  simp only [patternWords, PatternWord.slot, RouteVia.slot, List.cons_append, List.nil_append,
    Pattern.matchWords_keyword_iff, Pattern.matchWords_placeholder_iff] at h
  obtain ⟨_, rfl, _, rfl, _, rfl, _, rfl, destination, _, _, rfl, ⟨_, rfl, target, ws, args, rfl,
    hoptions, rfl⟩, rfl⟩ := h
  obtain ⟨distance, rfl, rfl⟩ := of_matchWords_options hoptions
  exact ⟨destination, target, distance, rfl, rfl⟩

/-- A reading that is refused, if at all, for the value that it reads. -/
def ReadsValue {α : Type} (x : Except RouterError α) : Prop :=
  ∀ e, x = .error e → ∃ value reason, e = .badValue value reason

theorem readsValue_typed {α : Type} (read : String → Except ValueFault α) (value : String) :
    ReadsValue (typed read value) := by
  intro e h
  unfold typed at h
  cases hr : read value with
  | ok a =>
    rw [hr] at h
    cases h
  | error f =>
    rw [hr] at h
    exact ⟨value, f.message, (Except.error.inj h).symm⟩

theorem readsValue_pure {α : Type} (a : α) : ReadsValue (pure a) := nofun

theorem ReadsValue.bind {α β : Type} {x : Except RouterError α} {f : α → Except RouterError β}
    (hx : ReadsValue x) (hf : ∀ a, ReadsValue (f a)) : ReadsValue (x >>= f) := by
  cases x with
  | error e => exact fun e' h => hx e' (congrArg Except.error (Except.error.inj h))
  | ok a => exact hf a

theorem ReadsValue.map {α β : Type} {x : Except RouterError α} (h : ReadsValue x) (f : α → β) :
    ReadsValue (x.map f) := by
  cases x with
  | error e => exact fun e' he => h e' (congrArg Except.error (Except.error.inj he))
  | ok a => exact nofun

/-- The distance that a command states, or the default. -/
def readDistance (c : RouteCommand) (args : Arguments) : Except RouterError Distance :=
  if c.withDistance then typed Value.distance (args.value "distance") else .ok .default

/-- The target that a command names. Whether there is such an interface is not looked up here. -/
def readTarget (c : RouteCommand) (args : Arguments) : Except RouterError RouteTarget :=
  match c.via with
  | .nextHop => (typed Value.gateway (args.value "next_hop")).map .nextHop
  | .interface => .ok (.interface (args.value "interface"))

theorem route_eq (c : RouteCommand) (args : Arguments) :
    c.route args = do
      let destination ← typed Value.network (args.value "destination")
      let distance ← c.readDistance args
      let target ← c.readTarget args
      return { destination, target, distance } := by
  obtain ⟨action, via, withDistance⟩ := c
  cases via <;> cases withDistance <;> rfl

theorem readsValue_readDistance (c : RouteCommand) (args : Arguments) :
    ReadsValue (c.readDistance args) := by
  unfold readDistance
  split
  · exact readsValue_typed _ _
  · exact readsValue_pure _

theorem readsValue_readTarget (c : RouteCommand) (args : Arguments) :
    ReadsValue (c.readTarget args) := by
  unfold readTarget
  split
  · exact (readsValue_typed _ _).map _
  · exact readsValue_pure _

theorem readsValue_route (c : RouteCommand) (args : Arguments) : ReadsValue (c.route args) := by
  rw [route_eq]
  exact (readsValue_typed _ _).bind fun _ => (readsValue_readDistance c args).bind fun _ =>
    (readsValue_readTarget c args).bind fun _ => readsValue_pure _

/-- The values of a route command are read as the words of a target and of a distance are. -/
theorem route_eq_ok_iff {names : List String} {destination target distance : String}
    (hargs : args = ("destination", destination) :: (c.via.argument, target) ::
      if c.withDistance then [("distance", distance)] else [])
    (hn : c.via = .interface → target ∈ names) {asked : StaticRoute} :
    c.route args = .ok asked ↔ ∃ network d through, Value.network destination = .ok network ∧
      (if c.withDistance then Value.distance distance = .ok d else d = .default) ∧
      TargetWords names [c.via.word, target] through ∧
      asked = ⟨network, through, d, false⟩ := by
  obtain ⟨action, via, withDistance⟩ := c
  subst hargs
  have hdefault : ∀ d : Distance, Distance.default = d ↔ d = .default := fun d => eq_comm
  have hasked : ∀ r : StaticRoute, r = asked ↔ asked = r := fun r => eq_comm
  cases via with
  | nextHop =>
    cases withDistance <;>
      simp [route, RouteVia.argument, RouteVia.word, Arguments.value_cons, Config.targetWords_iff,
        bind_eq_ok_iff, typed_eq_ok_iff, pure, Except.pure, hdefault, hasked]
  | interface =>
    have hin := hn rfl
    cases withDistance <;>
      simp [route, RouteVia.argument, RouteVia.word, Arguments.value_cons, Config.targetWords_iff,
        bind_eq_ok_iff, typed_eq_ok_iff, pure, Except.pure, hin, hdefault, hasked]

theorem optionWords_iff {distance : String} {options : List RouteOption} :
    OptionWords (c.optionWords distance) options ↔
      ∃ d, (if c.withDistance then Value.distance distance = .ok d else d = .default) ∧
        options = c.options d := by
  have hdisable : ∀ options,
      OptionWords (if c.action = .disable then ["disable"] else []) options ↔
        options = if c.action = .disable then [.disable] else [] := by
    intro options
    split <;> simp [Config.optionWords_disable_iff, Config.optionWords_nil_iff]
  unfold optionWords RouteCommand.options
  cases c.withDistance with
  | false => simp [hdisable]
  | true => simp [Config.optionWords_distance_iff, hdisable]

theorem disable_mem_options {d : Distance} :
    RouteOption.disable ∈ c.options d ↔ c.action = .disable := by
  simp [options]

theorem lastDistance_options {distance : String} {d : Distance}
    (h : if c.withDistance then Value.distance distance = .ok d else d = .default) :
    lastDistance .default (c.options d) = d := by
  have hdisable : ∀ otherwise, lastDistance otherwise
      (if c.action = .disable then [RouteOption.disable] else []) = otherwise := by
    intro otherwise
    split <;> simp
  unfold options
  cases hw : c.withDistance with
  | false =>
    simp only [hw, Bool.false_eq_true, if_false] at h
    simp [hdisable, h]
  | true => simp [hdisable]

/-- The grammar reads from the words of a route command the route that the command reads. -/
theorem interpret_of_matchWords {names : List String} {path : List Token}
    (h : Pattern.matchWords c.patternWords (c.action.verb :: values path) = some args)
    (hn : ∀ n, args.lookup "interface" = some n → n ∈ names) :
    ∃ t : Token, ∀ d?, interpret names path = .ok d? ↔
      ∃ asked, c.route args = .ok asked ∧
        d? = some (.route asked (decide (c.action = .disable)) t) := by
  obtain ⟨destination, target, distance, hwords, hargs⟩ := of_matchWords h
  have hin : c.via = .interface → target ∈ names := by
    intro hv
    apply hn
    rw [hargs, hv]
    rfl
  obtain ⟨value, -, hiff⟩ := Config.pathAsks_route_iff names (List.cons.inj hwords).2
  refine ⟨value, fun d? => (interpret_eq_ok_iff.trans (hiff d?)).trans ?_⟩
  simp only [route_eq_ok_iff hargs hin]
  constructor
  · rintro ⟨ws, ws', network, through, options, hsplit, hd, ht, ho, rfl⟩
    obtain ⟨rfl, rfl⟩ : [c.via.word, target] = ws ∧ c.optionWords distance = ws' :=
      List.append_inj hsplit ht.length_eq.symm
    obtain ⟨d, hdistance, rfl⟩ := optionWords_iff.mp ho
    refine ⟨_, ⟨network, d, through, hd, hdistance, ht, rfl⟩, ?_⟩
    simp only [lastDistance_options hdistance, disable_mem_options]
  · rintro ⟨_, ⟨network, d, through, hd, hdistance, ht, rfl⟩, rfl⟩
    refine ⟨_, _, network, through, c.options d, rfl, hd, ht,
      optionWords_iff.mpr ⟨d, hdistance, rfl⟩, ?_⟩
    simp only [lastDistance_options hdistance, disable_mem_options]

end RouteCommand

/-! ## Commands that start with the word -/

namespace Command

/-- The directive that a command says, under the token that stands for it in a file; a command that
does not start with `set` says none. -/
def directive? (args : Arguments) (t : Token) : Command → Option (Except RouterError Directive)
  | route c =>
    if c.action.verb = "set" then
      some ((c.route args).map fun asked => .route asked (decide (c.action = .disable)) t)
    else none
  | disableInterface => some (.ok (.disable (args.value "interface") t))
  | setAddress =>
    some ((RouteCommand.typed Value.interfaceAddress (args.value "address")).map
      (.address (args.value "interface") · t))
  | _ => none

variable {c : Command} {args : Arguments} {names : List String} {path : List Token}

/-- The commands that start with `set`. -/
theorem set_cases (h : c.patternWords.head? = some (.keyword "set")) :
    c = .disableInterface ∨ c = .setAddress ∨ ∃ rc, c = .route rc ∧ rc.action.verb = "set" := by
  have hall : ∀ c ∈ all, c.patternWords.head? = some (.keyword "set") → c = .disableInterface ∨
      c = .setAddress ∨ ∃ rc ∈ RouteCommand.all, c = .route rc ∧ rc.action.verb = "set" := by decide
  obtain hc | hc | ⟨rc, -, hrc⟩ := hall c c.mem_all h
  · exact .inl hc
  · exact .inr (.inl hc)
  · exact .inr (.inr ⟨rc, hrc⟩)

theorem of_matchWords_disableInterface {ws : List String}
    (h : Pattern.matchWords disableInterface.patternWords ws = some args) :
    ∃ n, ws = ["set", "interfaces", "ethernet", n, "disable"] ∧ args = [("interface", n)] := by
  simp only [patternWords, interfaceWords, PatternWord.slot, List.cons_append, List.nil_append,
    Pattern.matchWords_keyword_iff, Pattern.matchWords_placeholder_iff,
    Pattern.matchWords_nil_iff] at h
  obtain ⟨_, rfl, _, rfl, _, rfl, n, _, _, rfl, ⟨_, rfl, rfl, rfl⟩, rfl⟩ := h
  exact ⟨n, rfl, rfl⟩

theorem of_matchWords_setAddress {ws : List String}
    (h : Pattern.matchWords setAddress.patternWords ws = some args) :
    ∃ n v, ws = ["set", "interfaces", "ethernet", n, "address", v] ∧
      args = [("interface", n), ("address", v)] := by
  simp only [patternWords, interfaceWords, PatternWord.slot, List.cons_append, List.nil_append,
    Pattern.matchWords_keyword_iff, Pattern.matchWords_placeholder_iff,
    Pattern.matchWords_nil_iff] at h
  obtain ⟨_, rfl, _, rfl, _, rfl, n, _, _, rfl, ⟨_, rfl, v, _, _, rfl, ⟨rfl, rfl⟩, rfl⟩, rfl⟩ := h
  exact ⟨n, v, rfl, rfl⟩

/-- Something stands behind the word. -/
theorem words_of_set {ws : List String} (h : Pattern.matchWords c.patternWords ws = some args)
    (hset : c.patternWords.head? = some (.keyword "set")) : ∃ w ws', ws = "set" :: w :: ws' := by
  obtain rfl | rfl | ⟨rc, rfl, hverb⟩ := set_cases hset
  · obtain ⟨n, rfl, -⟩ := of_matchWords_disableInterface h
    exact ⟨_, _, rfl⟩
  · obtain ⟨n, v, rfl, -⟩ := of_matchWords_setAddress h
    exact ⟨_, _, rfl⟩
  · obtain ⟨destination, target, distance, rfl, -⟩ := RouteCommand.of_matchWords h
    exact ⟨_, _, congrArg (· :: _) hverb⟩

/-- The grammar reads from the words of a command the directive that the command says. -/
theorem interpret_of_matchWords
    (h : Pattern.matchWords c.patternWords ("set" :: values path) = some args)
    (hset : c.patternWords.head? = some (.keyword "set"))
    (hn : ∀ n, args.lookup "interface" = some n → n ∈ names)
    (hdhcp : args.lookup "address" ≠ some "dhcp") :
    ∃ t read, c.directive? args t = some read ∧ ∀ d?, interpret names path = .ok d? ↔
      ∃ d, read = .ok d ∧ d? = some d := by
  obtain rfl | rfl | ⟨rc, rfl, hverb⟩ := set_cases hset
  · obtain ⟨n, hwords, rfl⟩ := of_matchWords_disableInterface h
    obtain ⟨last, hlast⟩ := Config.pathAsks_interface_iff names (List.cons.inj hwords).2
    refine ⟨last, _, rfl, fun d? => (interpret_eq_ok_iff.trans (hlast d?)).trans ?_⟩
    have hin : n ∈ names := hn n rfl
    simp [hin, Arguments.value_cons]
  · obtain ⟨n, v, hwords, rfl⟩ := of_matchWords_setAddress h
    obtain ⟨last, hlast⟩ := Config.pathAsks_interface_iff names (List.cons.inj hwords).2
    refine ⟨last, _, rfl, fun d? => (interpret_eq_ok_iff.trans (hlast d?)).trans ?_⟩
    have hin : n ∈ names := hn n rfl
    have hv : v ≠ "dhcp" := by
      rintro rfl
      exact hdhcp rfl
    simp [hin, hv, Arguments.value_cons, map_eq_ok_iff, RouteCommand.typed_eq_ok_iff]
  · obtain ⟨t, ht⟩ := RouteCommand.interpret_of_matchWords (hverb ▸ h) hn
    refine ⟨t, _, if_pos hverb, fun d? => (ht d?).trans ?_⟩
    simp [map_eq_ok_iff]

/-- A command asks for the last edit of the directive that it says. -/
theorem edit?_of_directive? {t : Token} {read : Except RouterError Directive}
    (h : c.directive? args t = some read) : c.edit? args = some (read.map Directive.lastEdit) := by
  cases c with
  | route c =>
    rw [directive?] at h
    split at h
    · rename_i hverb
      obtain rfl := Option.some.inj h
      rw [edit?]
      have hedit : ∀ asked,
          c.edit asked = Directive.lastEdit (.route asked (decide (c.action = .disable)) t) := by
        intro asked
        cases ha : c.action with
        | set | disable => simp [RouteCommand.edit, Directive.lastEdit, ha]
        | delete =>
          rw [ha] at hverb
          exact absurd hverb (by decide)
      cases c.route args with
      | error e => rfl
      | ok asked => exact congrArg (fun e => some (Except.ok e)) (hedit asked)
    · cases h
  | disableInterface =>
    obtain rfl := Option.some.inj h
    rfl
  | setAddress =>
    obtain rfl := Option.some.inj h
    rw [edit?]
    cases RouteCommand.typed Value.interfaceAddress (args.value "address") <;> rfl
  | _ => cases h

/-- What is wrong with an argument, by what its placeholder stands for. An interface is looked up,
not read. -/
def argumentFault? (argument : String × String) : Option ValueFault :=
  if argument.1 = "destination" then failure? (Value.network argument.2)
  else if argument.1 = "next_hop" then failure? (Value.gateway argument.2)
  else if argument.1 = "distance" then failure? (Value.distance argument.2)
  else if argument.1 = "address" then failure? (Value.interfaceAddress argument.2)
  else none

/-- A command says a directive if each of its values can be read. -/
theorem directive_ok_iff {ws : List String} (h : Pattern.matchWords c.patternWords ws = some args)
    (hset : c.patternWords.head? = some (.keyword "set")) {t : Token}
    {read : Except RouterError Directive} (hread : c.directive? args t = some read) :
    (∃ d, read = .ok d) ↔ ∀ a ∈ args, argumentFault? a = none := by
  obtain rfl | rfl | ⟨⟨action, via, withDistance⟩, rfl, hverb⟩ := set_cases hset
  · obtain ⟨n, -, rfl⟩ := of_matchWords_disableInterface h
    obtain rfl := Option.some.inj hread
    simp [argumentFault?]
  · obtain ⟨n, v, -, rfl⟩ := of_matchWords_setAddress h
    obtain rfl := Option.some.inj hread
    simp [argumentFault?, Arguments.value_cons, map_eq_ok_iff, RouteCommand.typed_eq_ok_iff,
      failure?_eq_none_iff]
  · rw [directive?, if_pos hverb] at hread
    obtain rfl := Option.some.inj hread
    obtain ⟨destination, target, distance, -, hargs⟩ := RouteCommand.of_matchWords h
    have hin : via = .interface → target ∈ [target] := fun _ => List.mem_singleton_self target
    simp only [map_eq_ok_iff, RouteCommand.route_eq_ok_iff hargs hin]
    subst hargs
    cases withDistance with
    | false =>
      cases via <;> simp [argumentFault?, Config.targetWords_iff, failure?_eq_none_iff,
        RouteVia.word, RouteVia.argument]
    | true =>
      -- The command reads the distance before the target, which is typed first.
      cases via <;> simp [argumentFault?, Config.targetWords_iff, failure?_eq_none_iff,
        RouteVia.word, RouteVia.argument, and_comm]

theorem of_directive?_disable {t t' : Token} {asked : StaticRoute}
    (h : c.directive? args t = some (.ok (.route asked true t'))) :
    ∃ rc, c = .route rc ∧ rc.action = .disable ∧ rc.route args = .ok asked := by
  cases c with
  | route rc =>
    rw [directive?] at h
    split at h
    · obtain ⟨asked', hroute, hd⟩ := map_eq_ok_iff.mp (Option.some.inj h)
      obtain ⟨rfl, hdisable, -⟩ := Directive.route.inj hd
      exact ⟨rc, rfl, of_decide_eq_true hdisable, hroute⟩
    · cases h
  | setAddress =>
    obtain ⟨_, -, hd⟩ := map_eq_ok_iff.mp (Option.some.inj h)
    cases hd
  | _ => cases h

/-- A command says its directive unless one of its values is refused. -/
theorem readsValue_of_directive? {t : Token} {read : Except RouterError Directive}
    (h : c.directive? args t = some read) : RouteCommand.ReadsValue read := by
  cases c with
  | route c =>
    rw [directive?] at h
    split at h
    · obtain rfl := Option.some.inj h
      exact (RouteCommand.readsValue_route c args).map _
    · cases h
  | disableInterface =>
    obtain rfl := Option.some.inj h
    exact nofun
  | setAddress =>
    obtain rfl := Option.some.inj h
    exact (RouteCommand.readsValue_typed _ _).map _
  | _ => cases h

end Command

/-! ## The two meanings of a line -/

section Line

variable {files : Storage.Files} {r : Router} {line : String} {c : Command} {args : Arguments}

/-- In configuration mode a line that calls an editing command does what the command asks for, or is
presented as the refusal. -/
theorem dispatch_of_request (hm : r.mode = .configuration)
    (hcall : (Command.registry files).called? line = some (c, args))
    {request : Except RouterError Edit} (hedit : c.edit? args = some request) :
    (∃ r', request >>= r.edit = .ok r' ∧ (dispatch files r line).router = r' ∧
        (dispatch files r line).result = .done) ∨
      ∃ e, request >>= r.edit = .error e ∧ (dispatch files r line).router = r ∧
        (dispatch files r line).result =
          .presented (present (.router e) (c.path args) c.deletes) := by
  have hx : c.execute files args r = Command.attempt r (request >>= r.edit) Command.editMarker :=
    Command.execute_of_configuration hedit hm
  cases hr : request >>= r.edit with
  | ok r' =>
    rw [hr] at hx
    obtain ⟨hrouter, hdone⟩ := dispatch_of_finished hcall hx
    exact .inl ⟨r', rfl, hrouter, hdone⟩
  | error e =>
    rw [hr] at hx
    obtain ⟨hrouter, -, hresult⟩ := dispatch_of_called (r := r) hcall
    have hfailed : ((Command.registry files).run c args r).ending = .failed (.router e) :=
      congrArg Execution.ending hx
    refine .inr ⟨e, rfl, hrouter.trans (congrArg Execution.router hx), hresult.trans ?_⟩
    simp only [Registry.invoke, hfailed]
    rfl

/-- A line that asks for one edit leaves the router as the edit does, if it is accepted, and is
answered by no failure exactly then. -/
theorem dispatch_of_asked_edit (hm : r.mode = .configuration)
    (hcall : (Command.registry files).called? line = some (c, args)) {e : Edit}
    (hedit : c.edit? args = some (.ok e)) :
    (dispatch files r line).router = (r.edit e).toOption.getD r ∧
      ((dispatch files r line).result = .done ↔ ∃ r', r.edit e = .ok r') := by
  rcases dispatch_of_request hm hcall hedit with
    ⟨r', hr, hrouter, hdone⟩ | ⟨_, hr, hrouter, hresult⟩
  · replace hr : r.edit e = .ok r' := hr
    rw [hrouter, hdone, hr]
    exact ⟨rfl, fun _ => ⟨r', rfl⟩, fun _ => rfl⟩
  · replace hr : r.edit e = .error _ := hr
    rw [hrouter, hresult, hr]
    exact ⟨rfl, nofun, nofun⟩

theorem matchWords_of_find? (hfind : (Command.registry files).find? line = some (c, args)) :
    Pattern.matchWords c.patternWords (Text.words line) = some args :=
  Command.fitting?_eq_some_iff.mp ((Command.find?_eq files line).symm.trans hfind)

/-- As the text of a file, a line that fits a command is the directive that the command says. -/
theorem parse_of_find? {names : List String}
    (hfind : (Command.registry files).find? line = some (c, args))
    (hset : c.patternWords.head? = some (.keyword "set"))
    (hn : ∀ n, args.lookup "interface" = some n → n ∈ names)
    (hdhcp : args.lookup "address" ≠ some "dhcp") :
    ∃ t read, c.directive? args t = some read ∧
      ∀ ds, parse .commands names (Text.unwords (Text.words line)) = .ok ds ↔
        ∃ d, read = .ok d ∧ ds = [d] := by
  have hmatch := matchWords_of_find? hfind
  obtain ⟨w, ws, hwords⟩ := Command.words_of_set hmatch hset
  obtain ⟨path, hpath, hparse⟩ := parse_words hwords
  rw [hwords, ← hpath] at hmatch
  obtain ⟨t, read, hread, hiff⟩ := Command.interpret_of_matchWords hmatch hset hn hdhcp
  refine ⟨t, read, hread, fun ds => ?_⟩
  rw [hparse names, map_eq_ok_iff]
  simp only [hiff]
  constructor
  · rintro ⟨_, ⟨d, hd, rfl⟩, rfl⟩
    exact ⟨d, hd, rfl⟩
  · rintro ⟨d, hd, rfl⟩
    exact ⟨some d, ⟨d, hd, rfl⟩, rfl⟩

/-- One line means the same at the prompt and in a file. In configuration mode, let a line fit a
command that starts with `set`, about an interface that is there if it names one, and not about an
address from the network. As the text of a file it is accepted exactly if each of its values can be
read, and then says one directive. Typed, it then leaves the router as the edits of the directive do
when they are carried out in order, those skipped that are there already; it is answered by no
failure exactly if the last of them is accepted. For a line that switches a route off, that needs an
equal route to be listed, as the directive would add it. A line that is refused in the file is
presented as a failure when it is typed. -/
theorem set_line_agrees (hm : r.mode = .configuration)
    (hfind : (Command.registry files).find? line = some (c, args))
    (hset : c.patternWords.head? = some (.keyword "set"))
    (hn : ∀ n, args.lookup "interface" = some n → n ∈ r.interfaceNames)
    (hdhcp : args.lookup "address" ≠ some "dhcp") :
    let inFile := parse .commands r.interfaceNames (Text.unwords (Text.words line))
    ((∃ ds, inFile = .ok ds) ↔ ∀ a ∈ args, Command.argumentFault? a = none) ∧
      (∀ ds, inFile = .ok ds → ∃ d, ds = [d] ∧
        ((∀ rc asked, c = .route rc → rc.action = .disable → rc.route args = .ok asked →
            r.staged.routes.contains asked = true) →
          ∀ report, (dispatch files r line).router = (applyEdits d.token report r d.edits).1 ∧
            ∃ before path e report', d.edits = before ++ [(path, e)] ∧
              applyEdits d.token report r before = (r, .ok report') ∧
              ((dispatch files r line).result = .done ↔ ∃ r', r.edit e = .ok r'))) ∧
      ∀ e, inFile = .error e →
        ∃ p, (dispatch files r line).result = .presented p ∧ p.isFailure = true := by
  intro inFile
  have hmatch := matchWords_of_find? hfind
  have hcall := called?_of_find? hfind
  obtain ⟨t, read, hread, hparse⟩ := parse_of_find? hfind hset hn hdhcp
  have hedit := Command.edit?_of_directive? hread
  refine ⟨?_, fun ds hds => ?_, fun e he => ?_⟩
  · rw [← Command.directive_ok_iff hmatch hset hread]
    simp only [inFile, hparse]
    exact ⟨fun ⟨_, d, hd, _⟩ => ⟨d, hd⟩, fun ⟨d, hd⟩ => ⟨_, d, hd, rfl⟩⟩
  · obtain ⟨d, rfl, rfl⟩ := (hparse ds).mp hds
    refine ⟨d, rfl, fun hlisted report => ?_⟩
    obtain ⟨hrouter, hdone⟩ := dispatch_of_asked_edit hm hcall hedit
    have hfits : d.Fits r.staged.names := by
      have hnames : r.interfaceNames = r.staged.names := by
        rw [Router.interfaceNames, Router.visible, if_pos hm]
      exact hnames ▸ (Config.parse_ends _ _ _).of_ok hds d List.mem_cons_self
    have hoff : ∀ asked t', d = .route asked true t' → r.staged.routes.contains asked = true := by
      rintro asked t' rfl
      obtain ⟨rc, rfl, hdisable, hroute⟩ := Command.of_directive?_disable hread
      exact hlisted rc asked rfl hdisable hroute
    obtain ⟨happlied, before, path, report', hedits, hbefore⟩ :=
      Config.applyEdits_directive hm hfits hoff d.token report
    exact ⟨hrouter.trans happlied.symm, before, path, _, report', hedits, hbefore, hdone⟩
  · cases read with
    | ok d =>
      have hok := (hparse [d]).mpr ⟨d, rfl, rfl⟩
      rw [show inFile = _ from hok] at he
      cases he
    | error err =>
      obtain ⟨value, reason, rfl⟩ := Command.readsValue_of_directive? hread err rfl
      rcases dispatch_of_request hm hcall hedit with ⟨r', hr, -⟩ | ⟨e', hr, -, hresult⟩
      · cases hr
      · obtain rfl := Except.error.inj hr
        exact ⟨_, hresult, rfl⟩

/-- Of a router with a route that is listed: the line that switches it off has two edits in a file,
and the first is skipped. -/
theorem set_line_agrees_of_listed_route :
    let files : Storage.Files := fun _ => .missing
    let route : StaticRoute := ⟨⟨.ofNat 0x0A000000, 8, by decide⟩,
      .nextHop (.ofNat 0xC0000201), .default, false⟩
    let r := (Router.new "edge" [.fresh "eth0" ⟨.replicate 6 2⟩]).run
      [.setMode .configuration, .edit (.addRoute route)]
    let line := "set protocols static  route 10.0.0.0/8 next-hop 192.0.2.1 disable"
    ∃ d, parse .commands r.interfaceNames (Text.unwords (Text.words line)) = .ok [d] ∧
      (∀ report, (dispatch files r line).router = (applyEdits d.token report r d.edits).1) ∧
      (dispatch files r line).result = .done := by
  intro files route r line
  let rc : RouteCommand := ⟨.disable, .nextHop, false⟩
  have hfind : (Command.registry files).find? line =
      some (.route rc, [("destination", "10.0.0.0/8"), ("next_hop", "192.0.2.1")]) := by
    decide +kernel
  have hroute : rc.route [("destination", "10.0.0.0/8"), ("next_hop", "192.0.2.1")] = .ok route :=
    eq_ok_of_toOption (by decide +kernel)
  have hinterface : List.lookup "interface"
      [("destination", "10.0.0.0/8"), ("next_hop", "192.0.2.1")] = none := by decide
  obtain ⟨haccepted, hok, -⟩ := set_line_agrees (r := r) (by decide) hfind rfl
    (by simp [hinterface]) (by decide)
  obtain ⟨ds, hds⟩ := haccepted.mpr (by decide +kernel)
  obtain ⟨d, rfl, hagrees⟩ := hok ds hds
  have hlisted : ∀ rc' asked, Command.route rc = .route rc' → rc'.action = .disable →
      rc'.route [("destination", "10.0.0.0/8"), ("next_hop", "192.0.2.1")] = .ok asked →
        r.staged.routes.contains asked = true := by
    intro rc' asked hrc _ hasked
    obtain rfl := Command.route.inj hrc
    rw [hroute] at hasked
    obtain rfl := Except.ok.inj hasked
    decide
  have hdone : (dispatch files r line).result = .done := by decide +kernel
  exact ⟨d, hds, fun report => (hagrees hlisted report).1, hdone⟩

end Line

end Shell

end RouterConsole
