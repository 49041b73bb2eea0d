import Mathlib.Data.List.Perm.Basic
import RouterConsole.Proofs.Config.Blocks

/-!
# The block of a route

The lines of a route block are kept until it is closed; then its target is put first, and one path
is read. So the order of the lines does not matter where each line is a whole option.
-/
namespace RouterConsole.Config

/-! ## What a closed block asks for -/

/-- What a route block asks for when it is closed. -/
def Block.asks (names : List String) (b : Block) : Except Error (Option Directive) :=
  b.routePath >>= interpret names

section Closed

variable {b : Block}

theorem routePath_eq_ok_iff {path : List Token} :
    b.routePath = .ok path ↔ ∃ target, b.children.filter isTargetLine = [target] ∧
      path = b.path ++ target ++ (b.children.filter (!isTargetLine ·)).flatten := by
  rw [Block.routePath]
  cases b.children.filter isTargetLine with
  | nil => simp
  | cons target others =>
    cases others with
    | nil => simp [eq_comm]
    | cons second others => simp

theorem exists_destination (h : b.isRoute = true) :
    ∃ destination, values b.path = ["protocols", "static", "route", destination] := by
  rw [isRoute_eq, isRoutePath, Bool.and_eq_true, beq_iff_eq, beq_iff_eq] at h
  obtain ⟨hlength, htake⟩ := h
  have hrest : ((values b.path).drop 3).length = 1 := by rw [List.length_drop, hlength]
  obtain ⟨d, hd⟩ := List.length_eq_one_iff.mp hrest
  exact ⟨d, by rw [← List.take_append_drop 3 (values b.path), htake, hd]; rfl⟩

theorem filter_targets (ls : List (List Token)) :
    (ls.filter isTargetLine).map values = (ls.map values).filter isTargetWords := by
  rw [List.filter_map, List.filter_congr fun l _ => isTargetLine_eq l]
  rfl

theorem filter_options (ls : List (List Token)) :
    values (ls.filter (!isTargetLine ·)).flatten =
      ((ls.map values).filter (!isTargetWords ·)).flatten := by
  rw [List.filter_map, values, List.map_flatten,
    List.filter_congr fun l _ => by rw [isTargetLine_eq]]
  rfl

/-- What a route block asks for by the words of its lines: the one target line is followed by the
other lines, and where a line ends does not matter. The token of the directive is the fourth of the
path, whatever the lines are. -/
theorem asks_eq_ok_iff (names : List String) (h : b.isRoute = true) :
    ∃ value : Token, b.path[3]? = some value ∧ ∀ d?, b.asks names = .ok d? ↔
      ∃ target ws ws' destination through options,
        (b.children.map values).filter isTargetWords = [target] ∧
        target ++ ((b.children.map values).filter (!isTargetWords ·)).flatten = ws ++ ws' ∧
        Value.network value.value = .ok destination ∧ TargetWords names ws through ∧
        OptionWords ws' options ∧
        d? = some (.route ⟨destination, through, lastDistance .default options, false⟩
          (decide (RouteOption.disable ∈ options)) value) := by
  obtain ⟨d, hd⟩ := exists_destination h
  have htokens := hd
  simp only [values_eq_cons_iff, values_eq_nil_iff] at htokens
  obtain ⟨_, _, hpath, -, _, _, rfl, -, _, _, rfl, -, value, _, rfl, rfl, rfl⟩ := htokens
  refine ⟨value, by rw [hpath]; rfl, fun d? => ?_⟩
  have hread : ∀ target rest : List Token,
      interpret names (b.path ++ target ++ rest) = .ok d? ↔
        ∃ ws ws' destination through options, values target ++ values rest = ws ++ ws' ∧
          Value.network value.value = .ok destination ∧ TargetWords names ws through ∧
          OptionWords ws' options ∧
          d? = some (.route ⟨destination, through, lastDistance .default options, false⟩
            (decide (RouteOption.disable ∈ options)) value) := by
    intro target rest
    have hvalues : values (b.path ++ target ++ rest) =
        "protocols" :: "static" :: "route" :: value.value :: (values target ++ values rest) := by
      rw [values_append, values_append, hd, List.append_assoc]
      rfl
    obtain ⟨value', hvalue, hiff⟩ := pathAsks_route_iff names hvalues
    rw [hpath] at hvalue
    obtain rfl : value = value' := Option.some.inj hvalue
    exact interpret_eq_ok_iff.trans (hiff d?)
  rw [Block.asks, bind_eq_ok_iff]
  simp only [routePath_eq_ok_iff, ← filter_targets, ← filter_options, List.map_eq_singleton_iff]
  constructor
  · rintro ⟨_, ⟨target, hfilter, rfl⟩, hasks⟩
    obtain ⟨ws, ws', destination, through, options, hasks⟩ := (hread _ _).mp hasks
    exact ⟨_, ws, ws', destination, through, options, ⟨target, hfilter, rfl⟩, hasks⟩
  · rintro ⟨_, ws, ws', destination, through, options, ⟨target, hfilter, rfl⟩, hasks⟩
    exact ⟨_, ⟨target, hfilter, rfl⟩,
      (hread _ _).mpr ⟨ws, ws', destination, through, options, hasks⟩⟩

end Closed

/-! ## Lines that are whole options -/

/-- Two words of which the second is a value, or the word that disables. -/
inductive WholeLine : List String → Prop
  | nextHop {v : String} : PlainWord v → WholeLine ["next-hop", v]
  | interface {v : String} : PlainWord v → WholeLine ["interface", v]
  | distance {v : String} : PlainWord v → WholeLine ["distance", v]
  | disable : WholeLine ["disable"]

theorem WholeLine.plainWord {ws : List String} (h : WholeLine ws) : ∀ w ∈ ws, PlainWord w := by
  cases h with
  | nextHop hv | interface hv | distance hv => exact plainWord_pair (by decide) hv
  | disable => exact plainWord_singleton (by decide)

theorem WholeLine.of_target {ws : List String} (h : WholeLine ws) (ht : isTargetWords ws = true) :
    ws.length = 2 := by
  cases h with
  | nextHop | interface | distance => rfl
  | disable => exact absurd ht (by decide)

/-- A whole option is read apart from the words behind it. -/
theorem WholeLine.optionWords_append_iff {ws rest : List String} (h : WholeLine ws)
    (hnot : isTargetWords ws = false) {options : List RouteOption} :
    OptionWords (ws ++ rest) options ↔
      ∃ o os, OptionWords ws [o] ∧ OptionWords rest os ∧ options = o :: os := by
  cases h with
  | nextHop | interface => simp [isTargetWords] at hnot
  | @distance v =>
    simp only [List.cons_append, List.nil_append, optionWords_distance_iff, optionWords_nil_iff]
    constructor
    · rintro ⟨d, os, hd, rfl, hrest⟩
      exact ⟨_, os, ⟨d, [], hd, rfl, rfl⟩, hrest, rfl⟩
    · rintro ⟨_, os, ⟨d, _, hd, ho, rfl⟩, hrest, rfl⟩
      exact ⟨d, os, hd, by rw [(List.cons.inj ho).1], hrest⟩
  | disable =>
    simp only [List.cons_append, List.nil_append, optionWords_disable_iff, optionWords_nil_iff]
    constructor
    · rintro ⟨os, rfl, hrest⟩
      exact ⟨_, os, ⟨[], rfl, rfl⟩, hrest, rfl⟩
    · rintro ⟨_, os, ⟨_, ho, rfl⟩, hrest, rfl⟩
      exact ⟨os, by rw [(List.cons.inj ho).1], hrest⟩

/-- Whole options are read one by one. -/
theorem optionWords_flatten_iff {lines : List (List String)}
    (h : ∀ ws ∈ lines, WholeLine ws ∧ isTargetWords ws = false) {options : List RouteOption} :
    OptionWords lines.flatten options ↔
      List.Forall₂ (fun ws option => OptionWords ws [option]) lines options := by
  induction lines generalizing options with
  | nil => rw [List.flatten_nil, optionWords_nil_iff, List.forall₂_nil_left_iff]
  | cons ws lines ih =>
    obtain ⟨hws, hnot⟩ := h ws List.mem_cons_self
    have hlines : ∀ os, OptionWords lines.flatten os ↔
        List.Forall₂ (fun ws option => OptionWords ws [option]) lines os := fun _ =>
      ih fun vs hvs => h vs (List.mem_cons_of_mem ws hvs)
    simp only [List.flatten_cons, hws.optionWords_append_iff hnot, hlines,
      List.forall₂_cons_left_iff]

/-- Options that are stated in another order are the same options in another order. -/
theorem exists_perm_options {lines lines' : List (List String)}
    (h : ∀ ws ∈ lines, WholeLine ws ∧ isTargetWords ws = false) (hp : lines.Perm lines')
    {options : List RouteOption} (ho : OptionWords lines.flatten options) :
    ∃ options', OptionWords lines'.flatten options' ∧ options'.Perm options := by
  have h' : ∀ ws ∈ lines', WholeLine ws ∧ isTargetWords ws = false := fun ws hws =>
    h ws (hp.mem_iff.mpr hws)
  obtain ⟨options', ho', hperm⟩ :=
    List.perm_comp_forall₂ hp.symm ((optionWords_flatten_iff h).mp ho)
  exact ⟨options', (optionWords_flatten_iff h').mpr ho', hperm⟩

/-- At most one distance is the same last distance in any order. -/
theorem lastDistance_perm {options options' : List RouteOption} (hp : options'.Perm options)
    (hone : (options.filterMap RouteOption.distance?).length ≤ 1) (otherwise : Distance) :
    lastDistance otherwise options' = lastDistance otherwise options := by
  have hd := hp.filterMap RouteOption.distance?
  have heq :
      options'.filterMap RouteOption.distance? = options.filterMap RouteOption.distance? := by
    match h : options.filterMap RouteOption.distance? with
    | [] => rwa [h, List.perm_nil] at hd
    | [d] => rwa [h, List.perm_singleton] at hd
    | _ :: _ :: _ => simp [h] at hone
  rw [lastDistance, lastDistance, heq]

/-- Whether words state a distance. -/
def isDistanceWords (ws : List String) : Bool := ws.head? == some "distance"

theorem distances_of_lines {lines : List (List String)} {options : List RouteOption}
    (h : List.Forall₂ (fun ws option => OptionWords ws [option]) lines options) :
    (options.filterMap RouteOption.distance?).length = lines.countP isDistanceWords := by
  induction h with
  | nil => rfl
  | @cons ws option _ _ hws _ ih =>
    obtain ⟨-, ho⟩ | ⟨ws', rest, rfl, ho, -⟩ | ⟨v, d, ws', rest, rfl, -, ho, -⟩ :=
      optionWords_iff.mp hws
    · cases ho
    · obtain rfl := (List.cons.inj ho).1
      rw [List.countP_cons_of_neg (by simp [isDistanceWords]), ← ih]
      rfl
    · obtain rfl := (List.cons.inj ho).1
      rw [List.countP_cons_of_pos rfl, ← ih]
      rfl

/-- A block in which the same options stand in another order asks for the same. -/
theorem asks_of_perm {names : List String} {b : Block} (hb : b.isRoute = true)
    {ls ls' : List (List Token)} (hls : ∀ l ∈ ls, WholeLine (values l))
    (hone : (ls.map values).countP isDistanceWords ≤ 1)
    (hp : (ls'.map values).Perm (ls.map values)) {d? : Option Directive}
    (h : ({ b with children := ls } : Block).asks names = .ok d?) :
    ({ b with children := ls' } : Block).asks names = .ok d? := by
  obtain ⟨value, hvalue, hiff⟩ :=
    asks_eq_ok_iff names (b := { b with children := ls }) hb
  obtain ⟨value', hvalue', hiff'⟩ :=
    asks_eq_ok_iff names (b := { b with children := ls' }) hb
  obtain rfl : value' = value := Option.some.inj (hvalue'.symm.trans hvalue)
  obtain ⟨target, ws, ws', destination, through, options, hfilter, hsplit, hd, ht, ho, rfl⟩ :=
    (hiff d?).mp h
  have htarget : target ∈ ls.map values ∧ isTargetWords target = true :=
    List.mem_filter.mp (hfilter ▸ List.mem_singleton_self target)
  have hwhole : ∀ vs ∈ ls.map values, WholeLine vs := by
    intro vs hvs
    obtain ⟨l, hl, rfl⟩ := List.mem_map.mp hvs
    exact hls l hl
  have hlength : target.length = ws.length :=
    ((hwhole target htarget.1).of_target htarget.2).trans ht.length_eq.symm
  obtain ⟨rfl, rfl⟩ := List.append_inj hsplit hlength
  have hoptions : ∀ vs ∈ (ls.map values).filter (!isTargetWords ·),
      WholeLine vs ∧ isTargetWords vs = false := by
    intro vs hvs
    obtain ⟨hmem, hnot⟩ := List.mem_filter.mp hvs
    exact ⟨hwhole vs hmem, by simpa using hnot⟩
  obtain ⟨options', ho', hperm⟩ := exists_perm_options hoptions (hp.filter _).symm ho
  have hfilter' : (ls'.map values).filter isTargetWords = [target] :=
    List.perm_singleton.mp (hfilter ▸ hp.filter isTargetWords)
  have hdistances : (options.filterMap RouteOption.distance?).length ≤ 1 := by
    rw [distances_of_lines ((optionWords_flatten_iff hoptions).mp ho)]
    exact Nat.le_trans List.filter_sublist.countP_le hone
  refine (hiff' _).mpr ⟨target, target, _, destination, through, options', hfilter', rfl, hd, ht,
    ho', ?_⟩
  rw [lastDistance_perm hperm hdistances]
  simp only [hperm.mem_iff]

/-! ## A block among other lines -/

/-- The reading of what follows a route block, with the block before it. -/
def Block.before (b : Block) (rest : PathReading) : PathReading :=
  match b.routePath with
  | .error e => ⟨[], some e⟩
  | .ok path => rest.after (some path)

/-- A block that was just opened has no lines. -/
theorem children_of_opened {outer : List Block} {opener : List Token} {b : Block}
    (h : readLine outer opener = .ok (b :: outer, none)) : b.children = [] := by
  have hread := (readLine_ends outer opener).of_ok h
  generalize hstack : b :: outer = stack at hread
  have hlength : stack.length = outer.length + 1 := by rw [← hstack, List.length_cons]
  cases hread with
  | close | child =>
    simp only [List.length_cons] at hlength
    omega
  | opens => rw [(List.cons.inj hstack).1]

/-- Between its opener and its closing brace the lines of a route block are kept, and read when it
is closed. -/
theorem blockPaths_routeBlock {outer : List Block} {opener : List Token} {b : Block}
    (hopen : readLine outer opener = .ok (b :: outer, none)) (hb : b.isRoute = true)
    {ls : List (List Token)} (hls : ∀ l ∈ ls, ∀ w ∈ values l, PlainWord w) {close : List Token}
    (hclose : values close = ["\x7d"]) (rest : List (List Token)) :
    blockPaths outer (opener :: (ls ++ close :: rest)) =
      ({ b with children := ls } : Block).before (blockPaths outer rest) := by
  have hkept := blockPaths_children hls hb outer (close :: rest)
  rw [children_of_opened hopen, List.nil_append] at hkept
  have hclosed := readLine_close hclose { b with children := ls } outer
  have hroute : ({ b with children := ls } : Block).isRoute = true := hb
  rw [if_pos hroute] at hclosed
  have hnone : ∀ r : PathReading, r.after none = r := fun _ => rfl
  rw [blockPaths_cons hopen, hnone, hkept, Block.before]
  cases hr : ({ b with children := ls } : Block).routePath with
  | error e =>
    rw [hr] at hclosed
    rw [blockPaths, hclosed]
    rfl
  | ok path =>
    rw [hr] at hclosed
    exact blockPaths_cons hclosed rest

/-- The order of the lines of a route block does not matter. Let a line open a route block, inside
whatever blocks are open, and let the lines in it be whole options: a target, a distance, at most
once, or the word that disables. In every order of their words the lines up to the closing brace are
collected into one path, which is accepted in one order exactly if it is in another, as a directive
with the same route, switched off or not, under the same token. Unless exactly one of the lines
names a target, no order is accepted. -/
theorem route_block_ignores_order {names : List String} {outer : List Block} {opener : List Token}
    {b : Block} (hopen : readLine outer opener = .ok (b :: outer, none)) (hb : b.isRoute = true)
    {ls : List (List Token)} (hls : ∀ l ∈ ls, WholeLine (values l))
    (hone : (ls.map values).countP isDistanceWords ≤ 1) :
    let reordered := fun ls' : List (List Token) => { b with children := ls' }
    (∀ ls' : List (List Token), (ls'.map values).Perm (ls.map values) →
        (∀ close rest, values close = ["\x7d"] →
          blockPaths outer (opener :: (ls' ++ close :: rest)) =
            (reordered ls').before (blockPaths outer rest)) ∧
        ∀ d?, (reordered ls').asks names = .ok d? ↔ (reordered ls).asks names = .ok d?) ∧
      (∀ d?, (reordered ls).asks names = .ok d? → ∃ route disable t,
        d? = some (.route route disable t)) ∧
      (ls.countP isTargetLine ≠ 1 → ∃ e, (reordered ls).asks names = .error e) := by
  intro reordered
  have hone' : ∀ ls' : List (List Token), (ls'.map values).Perm (ls.map values) →
      (ls'.map values).countP isDistanceWords ≤ 1 := fun _ hp =>
    hp.countP_eq isDistanceWords ▸ hone
  have hls' : ∀ ls' : List (List Token), (ls'.map values).Perm (ls.map values) →
      ∀ l ∈ ls', WholeLine (values l) := by
    intro ls' hp l hl
    obtain ⟨k, hk, hkl⟩ := List.mem_map.mp (hp.mem_iff.mp (List.mem_map_of_mem hl))
    exact hkl ▸ hls k hk
  refine ⟨fun ls' hp => ⟨fun close rest hclose => ?_, fun d? => ⟨fun h => ?_, fun h => ?_⟩⟩,
    fun d? h => ?_, fun hcount => ?_⟩
  · exact blockPaths_routeBlock hopen hb (fun l hl => (hls' ls' hp l hl).plainWord) hclose rest
  · exact asks_of_perm hb (hls' ls' hp) (hone' ls' hp) hp.symm h
  · exact asks_of_perm hb hls hone hp h
  · obtain ⟨value, -, hiff⟩ := asks_eq_ok_iff names (b := reordered ls) hb
    obtain ⟨_, _, _, _, _, _, -, -, -, -, -, hd⟩ := (hiff d?).mp h
    exact ⟨_, _, _, hd⟩
  · cases h : (reordered ls).asks names with
    | error e => exact ⟨e, rfl⟩
    | ok d? =>
      obtain ⟨path, hpath, -⟩ := bind_eq_ok_iff.mp h
      obtain ⟨target, htarget, -⟩ := routePath_eq_ok_iff.mp hpath
      refine absurd ?_ hcount
      rw [List.countP_eq_length_filter]
      exact congrArg List.length htarget

/-- A block with three lines, read from the last line to the first. -/
theorem route_block_ignores_order_of_three_lines :
    let tokens : List String → List Token := List.map fun word => ⟨word, 1, 1⟩
    let opener := tokens ["protocols", "static", "route", "10.0.0.0/8", "\x7b"]
    let b : Block := ⟨⟨"\x7b", 1, 1⟩, tokens ["protocols", "static", "route", "10.0.0.0/8"], []⟩
    let ls := [tokens ["distance", "5"], tokens ["disable"], tokens ["next-hop", "192.0.2.1"]]
    let directive : Directive := .route ⟨⟨.ofNat 0x0A000000, 8, by decide⟩,
      .nextHop (.ofNat 0xC0000201), ⟨5, by decide, by decide⟩, false⟩ true ⟨"10.0.0.0/8", 1, 1⟩
    readLine [] opener = .ok ([b], none) ∧ b.isRoute = true ∧
      ({ b with children := ls.reverse } : Block).asks [] = .ok (some directive) := by
  intro tokens opener b ls directive
  have hopen : readLine [] opener = .ok ([b], none) := eq_ok_of_toOption (by decide)
  have hls : ∀ l ∈ ls, WholeLine (values l) := by
    simp only [ls, List.forall_mem_cons]
    exact ⟨.distance (by decide), .disable, .nextHop (by decide), nofun⟩
  have hperm : (ls.reverse.map values).Perm (ls.map values) := ls.reverse_perm.map values
  have hasks : ({ b with children := ls } : Block).asks [] = .ok (some directive) :=
    eq_ok_of_toOption (by decide +kernel)
  obtain ⟨horder, -, -⟩ := route_block_ignores_order hopen (by decide) hls (by decide)
  exact ⟨hopen, by decide, ((horder ls.reverse hperm).2 _).mpr hasks⟩

end RouterConsole.Config
