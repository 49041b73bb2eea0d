import RouterConsole.Proofs.Config.OpenedBlocks

/-!
# Where the lines of a route block end

The lines of a route block are joined before they are read, the target line first. So an accepted
block is a target and options as a whole, and its lines are so each for itself exactly if each of
them starts with a keyword. A line that is cut inside an option makes no difference.
-/
namespace RouterConsole.Config

/-! ## Route blocks of a text -/

/-- The route blocks that lines close inside the given open blocks, each with its lines. -/
def closedRoutes (stack : List Block) : List (List Token) → List Block
  | [] => []
  | l :: ls =>
    match readLine stack l with
    | .error _ => []
    | .ok (stack', _) =>
      (if (closer? l).isSome then stack.head?.toList.filter (·.isRoute) else []) ++
        closedRoutes stack' ls

/-- A closed route block is one of the paths of the text. -/
theorem routePath_of_mem_closedRoutes {ls : List (List Token)} {stack : List Block} {b : Block}
    (h : b ∈ closedRoutes stack ls) :
    b.isRoute = true ∧ ∃ path ∈ (blockPaths stack ls).paths, b.routePath = .ok path := by
  induction ls generalizing stack with
  | nil => cases h
  | cons l ls ih =>
    unfold closedRoutes at h
    unfold blockPaths
    cases hread : readLine stack l with
    | error e =>
      rw [hread] at h
      cases h
    | ok next =>
      obtain ⟨stack', path?⟩ := next
      have hline : LineRead l stack stack' path? := (readLine_ends stack l).of_ok hread
      rw [hread] at h
      rcases List.mem_append.mp h with hhere | hbehind
      · cases hline with
        | @closeRoute _ b' _ _ closes isRoute reads =>
          obtain rfl : b = b' := by simpa [closes, isRoute] using hhere
          exact ⟨isRoute, _, List.mem_append_left _ (List.mem_singleton_self _), reads⟩
        | close closes noRoute => simp [closes, noRoute] at hhere
        | opens keepsOpen => simp [keepsOpen] at hhere
        | child keepsOpen => simp [keepsOpen] at hhere
        | leaf keepsOpen => simp [keepsOpen] at hhere
      · obtain ⟨hb, path, hmem, hpath⟩ := ih hbehind
        exact ⟨hb, path, List.mem_append_right _ hmem, hpath⟩

/-! ## Whole options -/

/-- Whether words are one whole option of a route block. -/
def IsOption (names ws : List String) : Prop :=
  (∃ through, TargetWords names ws through) ∨ ∃ option, OptionWords ws [option]

/-- Whether words are one or more whole options. -/
def WholeOptions (names ws : List String) : Prop :=
  ∃ parts, parts ≠ [] ∧ ws = parts.flatten ∧ ∀ part ∈ parts, IsOption names part

/-- Whether words start with the keyword of an option. -/
def startsOption (ws : List String) : Bool :=
  ws.head?.any fun w => w == "next-hop" || w == "interface" || w == "distance" || w == "disable"

section Options

variable {names ws : List String}

theorem IsOption.starts (h : IsOption names ws) (rest : List String) :
    startsOption (ws ++ rest) = true ∧ ws ++ rest ≠ ["interface"] := by
  obtain ⟨through, h⟩ | ⟨option, h⟩ := h
  · obtain ⟨v, g, rfl, -⟩ | ⟨n, -, rfl, -⟩ := targetWords_iff.mp h
    · exact ⟨rfl, by simp⟩
    · exact ⟨rfl, by simp⟩
  · obtain ⟨-, ho⟩ | ⟨_, _, rfl, -⟩ | ⟨_, _, _, _, rfl, -⟩ := optionWords_iff.mp h
    · cases ho
    · exact ⟨rfl, by simp⟩
    · exact ⟨rfl, by simp⟩

/-- Whole options start with a keyword, and are more than the keyword of an interface. -/
theorem WholeOptions.starts (h : WholeOptions names ws) :
    startsOption ws = true ∧ ws ≠ ["interface"] := by
  obtain ⟨parts, hne, rfl, hparts⟩ := h
  obtain ⟨part, parts, rfl⟩ := List.exists_cons_of_ne_nil hne
  exact (hparts part List.mem_cons_self).starts parts.flatten

/-- Options fall into words of one option each. -/
theorem exists_parts_of_optionWords (names : List String) {options : List RouteOption}
    (h : OptionWords ws options) :
    ∃ parts : List (List String), ws = parts.flatten ∧ ∀ part ∈ parts, IsOption names part := by
  induction h with
  | nil => exact ⟨[], rfl, nofun⟩
  | disable _ ih =>
    obtain ⟨parts, rfl, hparts⟩ := ih
    refine ⟨["disable"] :: parts, rfl, ?_⟩
    rw [List.forall_mem_cons]
    exact ⟨.inr ⟨_, .disable .nil⟩, hparts⟩
  | @distance v _ _ _ hd _ ih =>
    obtain ⟨parts, rfl, hparts⟩ := ih
    refine ⟨["distance", v] :: parts, rfl, ?_⟩
    rw [List.forall_mem_cons]
    exact ⟨.inr ⟨_, .distance hd .nil⟩, hparts⟩

theorem wholeOptions_of_optionWords {options : List RouteOption} (h : OptionWords ws options)
    (hne : ws ≠ []) : WholeOptions names ws := by
  obtain ⟨parts, rfl, hparts⟩ := exists_parts_of_optionWords names h
  refine ⟨parts, ?_, rfl, hparts⟩
  rintro rfl
  exact hne rfl

theorem WholeOptions.append {ws' : List String} {part : List String} (hp : IsOption names part)
    (h : ∃ options, OptionWords ws' options) : WholeOptions names (part ++ ws') := by
  obtain ⟨options, ho⟩ := h
  obtain ⟨parts, rfl, hparts⟩ := exists_parts_of_optionWords names ho
  refine ⟨part :: parts, List.cons_ne_nil _ _, rfl, ?_⟩
  rw [List.forall_mem_cons]
  exact ⟨hp, hparts⟩

/-- Whether words start with the keyword of an option that is no target. -/
def startsKeyword (ws : List String) : Bool :=
  ws.head?.any fun w => w == "distance" || w == "disable"

theorem startsKeyword_append (h : startsKeyword ws = true) (rest : List String) :
    startsKeyword (ws ++ rest) = true := by
  cases ws with
  | nil => exact absurd h Bool.false_ne_true
  | cons w ws => exact h

/-- What does not read a keyword as a value reads no word as one that is a keyword. -/
theorem not_startsKeyword_of_value {ε α : Type} {read : String → Except ε α}
    (hdistance : (read "distance").toOption.isNone = true)
    (hdisable : (read "disable").toOption.isNone = true) {v : String} {a : α} (h : read v = .ok a) :
    startsKeyword (v :: ws) = false := by
  refine Bool.eq_false_iff.mpr fun hk => ?_
  obtain rfl | rfl : v = "distance" ∨ v = "disable" := by simpa [startsKeyword] using hk
  · rw [h] at hdistance
    cases hdistance
  · rw [h] at hdisable
    cases hdisable

theorem distance_not_keyword {v : String} {d : Distance} (h : Value.distance v = .ok d) :
    startsKeyword (v :: ws) = false :=
  not_startsKeyword_of_value (by decide +kernel) (by decide +kernel) h

theorem gateway_not_keyword {v : String} {g : IPv4.Address} (h : Value.gateway v = .ok g) :
    startsKeyword (v :: ws) = false :=
  not_startsKeyword_of_value (by decide +kernel) (by decide +kernel) h

/-- No keyword is the value of a distance, so options may be cut before a keyword. -/
theorem optionWords_of_append {ws' : List String} {options : List RouteOption}
    (hk : startsKeyword ws' = true) (h : OptionWords (ws ++ ws') options) :
    (∃ os, OptionWords ws os) ∧ ∃ os, OptionWords ws' os := by
  generalize hjoined : ws ++ ws' = joined at h
  induction h generalizing ws with
  | nil =>
    obtain ⟨rfl, rfl⟩ := List.append_eq_nil_iff.mp hjoined
    exact ⟨⟨[], .nil⟩, [], .nil⟩
  | @disable rest os hrest ih =>
    cases ws with
    | nil =>
      obtain rfl : ws' = "disable" :: rest := hjoined
      exact ⟨⟨[], .nil⟩, _, .disable hrest⟩
    | cons w ws =>
      obtain ⟨rfl, hbehind⟩ := List.cons.inj hjoined
      obtain ⟨⟨os, hos⟩, hrest⟩ := ih hbehind
      exact ⟨⟨_, .disable hos⟩, hrest⟩
  | @distance v d rest os hd hrest ih =>
    cases ws with
    | nil =>
      obtain rfl : ws' = "distance" :: v :: rest := hjoined
      exact ⟨⟨[], .nil⟩, _, .distance hd hrest⟩
    | cons w ws =>
      obtain ⟨rfl, hbehind⟩ := List.cons.inj hjoined
      cases ws with
      | nil =>
        obtain rfl : ws' = v :: rest := hbehind
        rw [distance_not_keyword hd] at hk
        cases hk
      | cons u ws =>
        obtain ⟨rfl, hrest⟩ := List.cons.inj hbehind
        obtain ⟨⟨os, hos⟩, hlast⟩ := ih hrest
        exact ⟨⟨_, .distance hd hos⟩, hlast⟩

/-- Options that are joined from lines with a keyword at the start of each are cut at the lines. -/
theorem optionWords_of_flatten {lines : List (List String)}
    (hk : ∀ line ∈ lines, startsKeyword line = true) {options : List RouteOption}
    (h : OptionWords (ws ++ lines.flatten) options) :
    (∃ os, OptionWords ws os) ∧ ∀ line ∈ lines, ∃ os, OptionWords line os := by
  induction lines generalizing ws options with
  | nil =>
    rw [List.flatten_nil, List.append_nil] at h
    exact ⟨⟨options, h⟩, nofun⟩
  | cons line lines ih =>
    rw [List.forall_mem_cons] at hk ⊢
    obtain ⟨hfirst, rest, hrest⟩ := optionWords_of_append (startsKeyword_append hk.1 _) h
    exact ⟨hfirst, ih hk.2 hrest⟩

theorem startsKeyword_of_not_target (h : startsOption ws = true) (hnot : isTargetWords ws = false) :
    startsKeyword ws = true := by
  cases ws with
  | nil => exact h
  | cons w ws =>
    simp only [startsOption, startsKeyword, isTargetWords, List.head?_cons, Option.any_some,
      Bool.or_eq_true, beq_iff_eq, Bool.or_eq_false_iff, beq_eq_false_iff_ne] at *
    tauto

/-- Lines that are joined to a target and options, with a keyword at the start of each line, are
whole options each, unless the first is the keyword of an interface alone. -/
theorem wholeOptions_of_joined {target joined : List String} {lines : List (List String)}
    {through : RouteTarget} {options : List RouteOption} (ht : TargetWords names ws through)
    (ho : OptionWords joined options) (hsplit : target ++ lines.flatten = ws ++ joined)
    (hne : target ≠ []) (halone : target ≠ ["interface"])
    (hk : ∀ line ∈ lines, startsKeyword line = true) :
    WholeOptions names target ∧ ∀ line ∈ lines, WholeOptions names line := by
  obtain ⟨kind, v, rfl, hvalue⟩ : ∃ kind v, ws = [kind, v] ∧
      (kind = "interface" ∨ startsKeyword (v :: joined) = false) := by
    obtain ⟨v, g, rfl, hg, -⟩ | ⟨n, -, rfl, -⟩ := targetWords_iff.mp ht
    · exact ⟨_, v, rfl, .inr (gateway_not_keyword hg)⟩
    · exact ⟨_, n, rfl, .inl rfl⟩
  obtain ⟨first, target, rfl⟩ := List.exists_cons_of_ne_nil hne
  obtain ⟨rfl, hbehind⟩ := List.cons.inj hsplit
  cases target with
  | nil =>
    -- The value would be the first word of the next line, which is a keyword.
    replace hbehind : lines.flatten = v :: joined := hbehind
    obtain rfl | hvalue := hvalue
    · exact absurd rfl halone
    · obtain ⟨line, lines, rfl⟩ : ∃ line rest, lines = line :: rest :=
        List.exists_cons_of_ne_nil fun hnil => by simp [hnil] at hbehind
      have hkey := startsKeyword_append (hk line List.mem_cons_self) lines.flatten
      rw [← List.flatten_cons, hbehind, hvalue] at hkey
      cases hkey
  | cons u tail =>
    obtain ⟨rfl, rfl⟩ : u = v ∧ tail ++ lines.flatten = joined := List.cons.inj hbehind
    obtain ⟨htail, hlines⟩ := optionWords_of_flatten hk ho
    refine ⟨WholeOptions.append (.inl ⟨through, ht⟩) htail, fun line hline => ?_⟩
    obtain ⟨os, hos⟩ := hlines line hline
    refine wholeOptions_of_optionWords hos ?_
    rintro rfl
    exact Bool.false_ne_true (hk [] hline)

/-- Lines with one target line that are a target and options when they are joined are whole options
each, if each of them starts as whole options do. -/
theorem wholeOptions_of_starts {target joined : List String} {lines : List (List String)}
    {through : RouteTarget} {options : List RouteOption}
    (hfilter : lines.filter isTargetWords = [target])
    (hsplit : target ++ (lines.filter (!isTargetWords ·)).flatten = ws ++ joined)
    (ht : TargetWords names ws through) (ho : OptionWords joined options)
    (hstarts : ∀ line ∈ lines, startsOption line = true ∧ line ≠ ["interface"]) :
    ∀ line ∈ lines, WholeOptions names line := by
  obtain ⟨htarget, hnamed⟩ := List.mem_filter.mp (hfilter ▸ List.mem_singleton_self target)
  have hne : target ≠ [] := by
    rintro rfl
    exact Bool.false_ne_true hnamed
  have hkeys : ∀ line ∈ lines.filter (!isTargetWords ·), startsKeyword line = true := by
    intro line hline
    obtain ⟨hmem, hnot⟩ := List.mem_filter.mp hline
    exact startsKeyword_of_not_target (hstarts line hmem).1 (by simpa using hnot)
  obtain ⟨hwhole, hothers⟩ :=
    wholeOptions_of_joined ht ho hsplit hne (hstarts target htarget).2 hkeys
  intro line hline
  cases hline' : isTargetWords line with
  | false => exact hothers line (List.mem_filter.mpr ⟨hline, by rw [hline']; rfl⟩)
  | true =>
    obtain rfl : line = target :=
      List.mem_singleton.mp (hfilter ▸ List.mem_filter.mpr ⟨hline, hline'⟩)
    exact hwhole

end Options

/-! ## Cut lines -/

theorem isTargetLine_append {l : List Token} (hl : l ≠ []) (l' : List Token) :
    isTargetLine (l ++ l') = isTargetLine l := by
  obtain ⟨t, l, rfl⟩ := List.exists_cons_of_ne_nil hl
  rfl

/-- A line that is cut in two is joined again. Only the rest of a target line would not follow its
front, if there are lines before it, and only the front of a line may name a target. -/
theorem routePath_of_cut {b : Block} {pre post : List (List Token)} {l l' : List Token}
    (hb : b.children = pre ++ (l ++ l') :: post) (hl : l ≠ []) (hl' : isTargetLine l' = false)
    (hpre : isTargetLine l = true → pre = []) :
    ({ b with children := pre ++ l :: l' :: post } : Block).routePath = b.routePath := by
  rw [Block.routePath, Block.routePath, hb]
  cases htarget : isTargetLine l with
  | false =>
    simp only [List.filter_append, List.filter_cons, isTargetLine_append hl, htarget, hl',
      Bool.false_eq_true, Bool.not_false, if_true, if_false, List.flatten_append,
      List.flatten_cons, List.append_assoc]
  | true =>
    obtain rfl := hpre htarget
    simp only [List.nil_append, List.filter_cons, isTargetLine_append hl, htarget, hl',
      Bool.false_eq_true, Bool.not_false, Bool.not_true, if_true, if_false, List.flatten_cons,
      List.append_assoc]
    cases post.filter isTargetLine with
    | nil => simp only [List.append_assoc]
    | cons second others => rfl

/-- Whatever blocks are open around a route block, a line in it that is cut in two is read as if it
were not. -/
theorem blockPaths_of_cut {outer : List Block} {opener close : List Token} {b : Block}
    (hopen : readLine outer opener = .ok (b :: outer, none)) (hb : b.isRoute = true)
    (hclose : values close = ["\x7d"]) {pre post : List (List Token)} {l l' : List Token}
    (hplain : ∀ line ∈ pre ++ (l ++ l') :: post, ∀ w ∈ values line, PlainWord w) (hl : l ≠ [])
    (hl' : isTargetLine l' = false) (hpre : isTargetLine l = true → pre = [])
    (rest : List (List Token)) :
    blockPaths outer (opener :: ((pre ++ l :: l' :: post) ++ close :: rest)) =
      blockPaths outer (opener :: ((pre ++ (l ++ l') :: post) ++ close :: rest)) := by
  have hcut : ∀ line ∈ pre ++ l :: l' :: post, ∀ w ∈ values line, PlainWord w := by
    simp only [List.forall_mem_append, List.forall_mem_cons, values_append] at hplain ⊢
    exact ⟨hplain.1, hplain.2.1.1, hplain.2.1.2, hplain.2.2⟩
  have hpath := routePath_of_cut (b := { b with children := pre ++ (l ++ l') :: post }) rfl hl hl'
    hpre
  rw [blockPaths_routeBlock hopen hb hcut hclose, blockPaths_routeBlock hopen hb hplain hclose,
    Block.before, Block.before, ← hpath]

/-- In an accepted text the lines of a route block are a target and options when they are joined,
the target line first. Each line is whole options for itself exactly if each line starts with a
keyword and none is the keyword of an interface alone. And a line that is cut in two, inside an
option or between options, is read as if it were not. -/
theorem route_lines_are_joined {names : List String} {text : String} {ds : List Directive}
    (h : parse .hierarchical names text = .ok ds) :
    (∀ b ∈ closedRoutes [] (tokenize text),
      (∃ target ws ws' through options, (b.children.map values).filter isTargetWords = [target] ∧
        target ++ ((b.children.map values).filter (!isTargetWords ·)).flatten = ws ++ ws' ∧
        TargetWords names ws through ∧ OptionWords ws' options) ∧
      ((∀ l ∈ b.children, WholeOptions names (values l)) ↔
        ∀ l ∈ b.children, startsOption (values l) = true ∧ values l ≠ ["interface"])) ∧
    ∀ outer opener close b, readLine outer opener = .ok (b :: outer, none) → b.isRoute = true →
      values close = ["\x7d"] → ∀ pre l l' post,
      (∀ line ∈ pre ++ (l ++ l') :: post, ∀ w ∈ values line, PlainWord w) → l ≠ [] →
      isTargetLine l' = false → (isTargetLine l = true → pre = []) → ∀ rest,
      blockPaths outer (opener :: ((pre ++ l :: l' :: post) ++ close :: rest)) =
        blockPaths outer (opener :: ((pre ++ (l ++ l') :: post) ++ close :: rest)) := by
  refine ⟨fun b hb => ?_, fun _ _ _ _ hopen hb hclose _ _ _ _ hplain hl hl' hpre rest =>
    blockPaths_of_cut hopen hb hclose hplain hl hl' hpre rest⟩
  obtain ⟨hroute, path, hmem, hpath⟩ := routePath_of_mem_closedRoutes hb
  obtain ⟨d?, hd⟩ := (accepted_iff.mp ⟨ds, h⟩).2 path hmem
  have hasks : b.asks names = .ok d? := by
    rw [Block.asks, hpath]
    exact interpret_eq_ok_iff.mpr hd
  obtain ⟨_, -, hiff⟩ := asks_eq_ok_iff names hroute
  obtain ⟨target, ws, ws', -, through, options, hfilter, hsplit, -, ht, ho, -⟩ :=
    (hiff d?).mp hasks
  refine ⟨⟨target, ws, ws', through, options, hfilter, hsplit, ht, ho⟩,
    fun hwhole l hl => (hwhole l hl).starts, fun hstarts => ?_⟩
  exact List.forall_mem_map.mp
    (wholeOptions_of_starts hfilter hsplit ht ho (List.forall_mem_map.mpr hstarts))

/-- Each of three lines is whole options, and the last line may be cut before its value. -/
theorem route_lines_are_joined_of_three_lines :
    let text :=
      "protocols static route 10.0.0.0/8 \x7b\n disable\n next-hop 192.0.2.1\n distance 5\n\x7d\n"
    let tokens : List String → List Token := List.map fun word => ⟨word, 1, 1⟩
    let opener := tokens ["protocols", "static", "route", "10.0.0.0/8", "\x7b"]
    let front := [opener, tokens ["disable"], tokens ["next-hop", "192.0.2.1"]]
    (∃ ds, parse .hierarchical [] text = .ok ds) ∧
      (∃ b ∈ closedRoutes [] (tokenize text), b.children.length = 3 ∧
        ∀ l ∈ b.children, WholeOptions [] (values l)) ∧
      blockPaths [] (front ++ [tokens ["distance"], tokens ["5"], tokens ["\x7d"]]) =
        blockPaths [] (front ++ [tokens ["distance", "5"], tokens ["\x7d"]]) := by
  intro text tokens opener front
  have hparse : (parse .hierarchical [] text).toOption.isSome = true := by decide +kernel
  obtain ⟨ds, hds⟩ := Option.isSome_iff_exists.mp hparse
  obtain ⟨hlines, hcut⟩ := route_lines_are_joined (eq_ok_of_toOption hds)
  have hclosed : (closedRoutes [] (tokenize text)).map (fun b => b.children.map values) =
      [[["disable"], ["next-hop", "192.0.2.1"], ["distance", "5"]]] := by decide +kernel
  obtain ⟨b, hb, hchildren⟩ := List.mem_map.mp (hclosed ▸ List.mem_singleton_self _)
  have hstarts : ∀ l ∈ b.children, startsOption (values l) = true ∧ values l ≠ ["interface"] := by
    rw [← List.forall_mem_map (P := fun line => startsOption line = true ∧ line ≠ ["interface"]),
      hchildren]
    decide
  have hopen : readLine [] opener =
      .ok ([⟨⟨"\x7b", 1, 1⟩, tokens ["protocols", "static", "route", "10.0.0.0/8"], []⟩], none) :=
    eq_ok_of_toOption (by decide)
  exact ⟨⟨ds, eq_ok_of_toOption hds⟩,
    ⟨b, hb, by simpa using congrArg List.length hchildren, (hlines b hb).2.mpr hstarts⟩,
    hcut [] opener (tokens ["\x7d"]) _ hopen (by decide) rfl
      [tokens ["disable"], tokens ["next-hop", "192.0.2.1"]] (tokens ["distance"]) (tokens ["5"]) []
      (by decide) (List.cons_ne_nil _ _) rfl nofun []⟩

/-- Not every line of a route block of an accepted text is whole options: a distance may stand below
its keyword, with the line of the target between them. -/
theorem option_cut_by_target_line :
    ¬∀ (names : List String) (text : String) (ds : List Directive),
      parse .hierarchical names text = .ok ds → ∀ b ∈ closedRoutes [] (tokenize text),
        ∀ l ∈ b.children, WholeOptions names (values l) := by
  intro hall
  let text := "protocols static route 10.0.0.0/8 \x7b\n distance\n interface eth0\n 5\n\x7d\n"
  have hparse : (parse .hierarchical ["eth0", "lo"] text).toOption.isSome = true := by
    decide +kernel
  obtain ⟨ds, hds⟩ := Option.isSome_iff_exists.mp hparse
  have hclosed : (closedRoutes [] (tokenize text)).map (fun b => b.children.map values) =
      [[["distance"], ["interface", "eth0"], ["5"]]] := by decide +kernel
  obtain ⟨b, hb, hchildren⟩ := List.mem_map.mp (hclosed ▸ List.mem_singleton_self _)
  obtain ⟨l, hl, hvalue⟩ : ∃ l ∈ b.children, values l = ["5"] := by
    rw [← List.mem_map, hchildren]
    decide
  have hwhole := hall _ text ds (eq_ok_of_toOption hds) b hb l hl
  rw [hvalue] at hwhole
  exact absurd hwhole.starts.1 (by decide)

end RouterConsole.Config
