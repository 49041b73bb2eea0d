import RouterConsole.Proofs.Config.Generate

/-!
# Nested blocks are read back

What a line of nested blocks means depends on the path of the blocks around it, so lines are said to
read as edits inside a path. A block around lines that read as edits inside its own path reads as
the same edits inside the path outside; only the block of a route, which is one path, needs a
reading of its own.
-/
namespace RouterConsole.Config

open Text (unwords words)

/-! ## One line -/

/-- Whether the words of a path are those of a route block. -/
def isRoutePath (ws : List String) : Bool :=
  ws.length == 4 && ws.take 3 == ["protocols", "static", "route"]

theorem isRoute_eq (b : Block) : b.isRoute = isRoutePath (values b.path) := by
  rw [Block.isRoute, isRoutePath, values, List.length_map, List.map_take]

theorem inRoute_eq (stack : List Block) :
    stack.head?.any (·.isRoute) = isRoutePath (values (currentPath stack)) := by
  cases stack with
  | nil => rfl
  | cons b outer => exact isRoute_eq b

section PlainLine

variable {l : List Token}

theorem closer?_of_plain (h : ∀ w ∈ values l, PlainWord w) : closer? l = none := by
  unfold closer?
  split
  · rename_i t
    refine if_neg fun ht => ?_
    have hp := h t.value List.mem_cons_self
    rw [ht] at hp
    exact hp.no_close (by decide)
  · rfl

theorem splitOpener_of_plain (h : ∀ w ∈ values l, PlainWord w) : splitOpener l = none := by
  rw [splitOpener]
  cases hlast : l.getLast? with
  | none => rfl
  | some t =>
    have hp := h t.value (List.mem_map_of_mem (List.mem_of_getLast? hlast))
    simp only [Option.bind_some]
    split
    · rename_i rest hrest
      have hmem : '\x7b' ∈ t.value.toList.reverse := hrest ▸ List.mem_cons_self
      exact absurd (List.mem_reverse.mp hmem) hp.no_open
    · rfl

theorem find?_hasBrace_of_plain (h : ∀ w ∈ values l, PlainWord w) : l.find? hasBrace = none := by
  refine List.find?_eq_none.mpr fun t ht hb => ?_
  have hp := h t.value (List.mem_map_of_mem ht)
  rcases Bool.or_eq_true_iff.mp hb with hb | hb
  · exact hp.no_open (List.contains_iff_mem.mp hb)
  · exact hp.no_close (List.contains_iff_mem.mp hb)

/-- Outside a route block a line without braces is a path. -/
theorem readLine_leaf (h : ∀ w ∈ values l, PlainWord w) {stack : List Block}
    (hr : isRoutePath (values (currentPath stack)) = false) :
    readLine stack l = .ok (stack, some (currentPath stack ++ l)) := by
  rw [readLine.eq_def, closer?_of_plain h, splitOpener_of_plain h, find?_hasBrace_of_plain h]
  cases stack with
  | nil => rfl
  | cons b outer =>
    have hb : b.isRoute = false := (isRoute_eq b).trans hr
    simp only [hb, Bool.false_eq_true, if_false]
    rfl

/-- Inside a route block a line without braces is kept for the end of the block. -/
theorem readLine_child (h : ∀ w ∈ values l, PlainWord w) {b : Block} (hb : b.isRoute = true)
    (outer : List Block) :
    readLine (b :: outer) l = .ok ({ b with children := b.children ++ [l] } :: outer, none) := by
  rw [readLine.eq_def, closer?_of_plain h, splitOpener_of_plain h, find?_hasBrace_of_plain h]
  simp only [hb, if_true]

end PlainLine

/-- Words and a brace open a block, outside route blocks. -/
theorem readLine_open {stack : List Block} (hr : isRoutePath (values (currentPath stack)) = false)
    {ws : List String} (hne : ws ≠ []) {l : List Token} (h : values l = ws ++ ["\x7b"]) :
    ∃ opener path, values path = ws ∧
      readLine stack l = .ok (⟨opener, currentPath stack ++ path, []⟩ :: stack, none) := by
  obtain ⟨path, last, rfl, hpath, hlast⟩ := List.map_eq_append_iff.mp h
  obtain ⟨brace, rfl, hbrace⟩ := List.map_eq_singleton_iff.mp hlast
  have hpne : path ≠ [] := by
    rintro rfl
    exact hne hpath.symm
  have hclose : closer? (path ++ [brace]) = none := by
    obtain ⟨t, ts, rfl⟩ := List.exists_cons_of_ne_nil hpne
    cases ts with
    | nil => rfl
    | cons u us => rfl
  have hopen : splitOpener (path ++ [brace]) = some (path, brace) := by
    rw [splitOpener, List.getLast?_concat, Option.bind_some, hbrace, List.dropLast_concat]
    rfl
  refine ⟨brace, path, hpath, ?_⟩
  rw [readLine.eq_def, hclose, hopen]
  simp only [if_neg hpne, inRoute_eq, hr, Bool.false_eq_true, if_false]
  rfl

theorem readLine_close {l : List Token} (h : values l = ["\x7d"]) (b : Block)
    (outer : List Block) :
    readLine (b :: outer) l =
      if b.isRoute then b.routePath.map fun path => (outer, some path) else .ok (outer, none) := by
  obtain ⟨brace, rfl, hbrace⟩ := List.map_eq_singleton_iff.mp h
  have hclose : closer? [brace] = some brace := if_pos hbrace
  rw [readLine.eq_def, hclose]

theorem blockPaths_cons {stack stack' : List Block} {l : List Token} {path : Option (List Token)}
    (h : readLine stack l = .ok (stack', path)) (ls : List (List Token)) :
    blockPaths stack (l :: ls) = (blockPaths stack' ls).after path := by
  rw [blockPaths, h]

/-! ## Lines inside a path -/

/-- Inside the given path, whatever lies around it and follows, the lines read as the edits. -/
structure ReadsAs (names inside : List String) (lines : List String) (es : List (String × Edit)) :
    Prop where
  readable : ∀ l ∈ lines, Readable l
  read : ∀ (stack : List Block) (ls rest : List (List Token)),
    values (currentPath stack) = inside → ls.map values = lines.map words →
    ∃ ps, blockPaths stack (ls ++ rest) =
        ⟨ps ++ (blockPaths stack rest).paths, (blockPaths stack rest).fault⟩ ∧
      Says names ps es

section Lines

variable {names inside lines lines' : List String} {es es' : List (String × Edit)}

theorem readsAs_nil : ReadsAs names inside [] [] where
  readable := nofun
  read stack ls rest _ hls := by
    rw [List.map_eq_nil_iff.mp hls]
    exact ⟨[], rfl, says_nil⟩

theorem ReadsAs.append (h : ReadsAs names inside lines es) (h' : ReadsAs names inside lines' es') :
    ReadsAs names inside (lines ++ lines') (es ++ es') where
  readable l hl := (List.mem_append.mp hl).elim (h.readable l) (h'.readable l)
  read stack ls rest hin hls := by
    rw [List.map_append] at hls
    obtain ⟨ks, ms, rfl, hks, hms⟩ := List.map_eq_append_iff.mp hls
    obtain ⟨ps, hps, hsays⟩ := h.read stack ks (ms ++ rest) hin hks
    obtain ⟨qs, hqs, hsays'⟩ := h'.read stack ms rest hin hms
    refine ⟨ps ++ qs, ?_, hsays.append hsays'⟩
    rw [List.append_assoc, hps, hqs, List.append_assoc]

theorem readsAs_flatMap {α : Type} {l : List α} {f : α → List String}
    {g : α → List (String × Edit)} (h : ∀ a ∈ l, ReadsAs names inside (f a) (g a)) :
    ReadsAs names inside (l.flatMap f) (l.flatMap g) := by
  induction l with
  | nil => exact readsAs_nil
  | cons a l ih =>
    rw [List.flatMap_cons, List.flatMap_cons]
    exact (h a List.mem_cons_self).append (ih fun b hb => h b (List.mem_cons_of_mem a hb))

/-- Nothing reads as nothing. -/
theorem ReadsAs.edits_eq_nil (h : ReadsAs names inside [] es) : es = [] := by
  have hin : values (inside.map fun v => ⟨v, 0, 0⟩) = inside := by
    rw [values, List.map_map]
    exact inside.map_id
  -- Any open block with this path will do, so its tokens may have no place.
  obtain ⟨ps, hps, hsays⟩ := h.read [⟨⟨"", 0, 0⟩, _, []⟩] [] [] hin rfl
  obtain rfl : ps = [] := by
    have hpaths := congrArg PathReading.paths hps
    simpa using hpaths.symm
  exact edits_of_says_nil hsays

theorem readsAs_leaf {w : String} {ws : List String} (hr : isRoutePath inside = false)
    (hp : ∀ v ∈ w :: ws, PlainWord v) (hw : w.toList.head? ≠ some '#')
    (hs : ∀ path, values path = inside ++ (w :: ws) → Says names [path] es) :
    ReadsAs names inside [unwords (w :: ws)] es where
  readable l hl := by
    rw [List.mem_singleton.mp hl]
    exact readable_of_plain hp hw
  read stack ls rest hin hls := by
    obtain ⟨l, rfl, hl⟩ := List.map_eq_singleton_iff.mp hls
    rw [words_of_plain hp] at hl
    have hline := readLine_leaf (hl.symm ▸ hp) (hin.symm ▸ hr)
    refine ⟨[currentPath stack ++ l], ?_, hs _ ?_⟩
    · rw [List.singleton_append, blockPaths_cons hline]
      rfl
    · rw [values_append, hin, hl]

end Lines

/-! ## Blocks -/

theorem plainOpener {w : String} {ws : List String} (hp : ∀ v ∈ w :: ws, PlainWord v)
    (hw : w.toList.head? ≠ some '#') :
    Readable (unwords (w :: ws) ++ " \x7b") ∧
      words (unwords (w :: ws) ++ " \x7b") = (w :: ws) ++ ["\x7b"] := by
  have hwords : ∀ v ∈ w :: (ws ++ ["\x7b"]), Text.IsWord v.toList := by
    intro v hv
    rcases List.mem_append.mp (show v ∈ (w :: ws) ++ ["\x7b"] from hv) with hv | hv
    · exact (hp v hv).word
    · rw [List.mem_singleton.mp hv]
      decide
  have hspace : " \x7b" = " " ++ "\x7b" := by decide
  rw [hspace, Text.unwords_append (List.cons_ne_nil w ws), List.cons_append]
  exact ⟨readable_unwords hwords hw, Text.words_unwords hwords⟩

theorem closingBrace : Readable "\x7d" ∧ words "\x7d" = ["\x7d"] := by
  have hwords : ∀ v ∈ ["\x7d"], Text.IsWord v.toList := by
    intro v hv
    rw [List.mem_singleton.mp hv]
    decide
  exact ⟨readable_unwords hwords (by decide), Text.words_unwords hwords⟩

section Blocks

variable {names inside body : List String} {es : List (String × Edit)} {w : String}
  {ws : List String}

theorem readable_block (hp : ∀ v ∈ w :: ws, PlainWord v) (hw : w.toList.head? ≠ some '#')
    (h : ∀ l ∈ body, Readable l) : ∀ l ∈ block (unwords (w :: ws)) body, Readable l := by
  intro l hl
  rcases List.mem_append.mp hl with hl | hl
  · rcases List.mem_cons.mp hl with rfl | hl
    · exact (plainOpener hp hw).1
    · obtain ⟨k, hk, rfl⟩ := List.mem_map.mp hl
      exact readable_indented (h k hk)
  · rw [List.mem_singleton.mp hl]
    exact closingBrace.1

/-- The token lines of a block: one that opens it, those of the body and one that closes it. -/
theorem lines_of_block (hp : ∀ v ∈ w :: ws, PlainWord v) (hw : w.toList.head? ≠ some '#')
    {ls : List (List Token)} (h : ls.map values = (block (unwords (w :: ws)) body).map words) :
    ∃ first middle last, ls = first :: (middle ++ [last]) ∧
      values first = (w :: ws) ++ ["\x7b"] ∧ middle.map values = body.map words ∧
      values last = ["\x7d"] := by
  rw [block, List.map_append, List.map_cons, (plainOpener hp hw).2, List.map_cons,
    closingBrace.2, List.cons_append, List.map_map] at h
  obtain ⟨first, ls, rfl, hfirst, h⟩ := List.map_eq_cons_iff.mp h
  obtain ⟨middle, closing, rfl, hmiddle, hclosing⟩ := List.map_eq_append_iff.mp h
  obtain ⟨last, rfl, hlast⟩ := List.map_eq_singleton_iff.mp hclosing
  refine ⟨first, middle, last, rfl, hfirst, hmiddle.trans ?_, hlast⟩
  exact List.map_congr_left fun k _ => Text.words_indented k

/-- A block reads as its body does inside the longer path. -/
theorem readsAs_block (hp : ∀ v ∈ w :: ws, PlainWord v) (hw : w.toList.head? ≠ some '#')
    (hr : isRoutePath inside = false) (hr' : isRoutePath (inside ++ (w :: ws)) = false)
    (h : ReadsAs names (inside ++ (w :: ws)) body es) :
    ReadsAs names inside (block (unwords (w :: ws)) body) es where
  readable := readable_block hp hw h.readable
  read stack ls rest hin hls := by
    obtain ⟨first, middle, last, rfl, hfirst, hmiddle, hlast⟩ := lines_of_block hp hw hls
    obtain ⟨opener, path, hpath, hopen⟩ :=
      readLine_open (hin.symm ▸ hr) (List.cons_ne_nil w ws) hfirst
    have hin' : values (currentPath stack ++ path) = inside ++ (w :: ws) := by
      rw [values_append, hin, hpath]
    obtain ⟨ps, hps, hsays⟩ :=
      h.read (⟨opener, currentPath stack ++ path, []⟩ :: stack) middle (last :: rest) hin' hmiddle
    have hroute : Block.isRoute ⟨opener, currentPath stack ++ path, []⟩ = false := by
      rw [isRoute_eq, hin', hr']
    have hclose := readLine_close hlast ⟨opener, currentPath stack ++ path, []⟩ stack
    rw [hroute, if_neg Bool.false_ne_true] at hclose
    refine ⟨ps, ?_, hsays⟩
    rw [List.cons_append, List.append_assoc, List.singleton_append, blockPaths_cons hopen, hps,
      blockPaths_cons hclose]
    rfl

theorem readsAs_blockUnlessEmpty (hp : ∀ v ∈ w :: ws, PlainWord v)
    (hw : w.toList.head? ≠ some '#') (hr : isRoutePath inside = false)
    (hr' : isRoutePath (inside ++ (w :: ws)) = false)
    (h : ReadsAs names (inside ++ (w :: ws)) body es) :
    ReadsAs names inside (blockUnlessEmpty (unwords (w :: ws)) body) es := by
  unfold blockUnlessEmpty
  split
  · rename_i hbody
    subst hbody
    rw [h.edits_eq_nil]
    exact readsAs_nil
  · exact readsAs_block hp hw hr hr' h

end Blocks

/-! ## The block of a route -/

/-- Whether words name a target. -/
def isTargetWords : List String → Bool
  | [] => false
  | w :: _ => w == "next-hop" || w == "interface"

theorem isTargetLine_eq (l : List Token) : isTargetLine l = isTargetWords (values l) := by
  cases l <;> rfl

theorem isTargetWords_words (t : RouteTarget) : isTargetWords t.words = true := by
  cases t <;> rfl

/-- The path of a route block whose first line is its target. -/
theorem routePath_of_children {b : Block} {target : RouteTarget} {others : List (List String)}
    (h : b.children.map values = target.words :: others)
    (ho : ∀ ws ∈ others, isTargetWords ws = false) :
    ∃ path, b.routePath = .ok path ∧
      values path = values b.path ++ target.words ++ others.flatten := by
  obtain ⟨t, us, hchildren, ht, hus⟩ := List.map_eq_cons_iff.mp h
  have htarget : isTargetLine t = true := by rw [isTargetLine_eq, ht, isTargetWords_words]
  have hothers : ∀ u ∈ us, isTargetLine u = false := by
    intro u hu
    rw [isTargetLine_eq]
    exact ho _ (hus ▸ List.mem_map_of_mem hu)
  have hfilter : us.filter isTargetLine = [] :=
    List.filter_eq_nil_iff.mpr fun u hu => by simp [hothers u hu]
  have hself : us.filter (!isTargetLine ·) = us :=
    List.filter_eq_self.mpr fun u hu => by simp [hothers u hu]
  refine ⟨b.path ++ t ++ us.flatten, ?_, ?_⟩
  · rw [Block.routePath, hchildren, List.filter_cons_of_pos htarget, hfilter,
      List.filter_cons_of_neg (by simp [htarget]), hself]
  · rw [values_append, values_append, ht, ← hus, values, values, List.map_flatten]
    rfl

/-- Lines without braces inside a route block are kept in order. -/
theorem blockPaths_children {ls : List (List Token)}
    (h : ∀ l ∈ ls, ∀ w ∈ values l, PlainWord w) {b : Block} (hb : b.isRoute = true)
    (outer : List Block) (rest : List (List Token)) :
    blockPaths (b :: outer) (ls ++ rest) =
      blockPaths ({ b with children := b.children ++ ls } :: outer) rest := by
  induction ls generalizing b with
  | nil => rw [List.nil_append, List.append_nil]
  | cons l ls ih =>
    have hline := readLine_child (h l List.mem_cons_self) hb outer
    have hrest := ih (fun k hk => h k (List.mem_cons_of_mem l hk))
      (b := { b with children := b.children ++ [l] }) hb
    rw [List.cons_append, blockPaths_cons hline, hrest, List.append_assoc, List.singleton_append]
    rfl

/-- The lines inside the block of a route, as words. -/
def routeLines (r : StaticRoute) : List (List String) :=
  r.target.words ::
    ((if r.distance = .default then [] else [["distance", toString r.distance.toNat]]) ++
      if r.disabled then [["disable"]] else [])

theorem unwords_pair {w v : String} {line : String} (h : line = w ++ " ") :
    line ++ v = unwords [w, v] := by
  rw [h, String.append_assoc, ← String.intercalate_singleton (s := " ") (t := w)]
  exact Text.unwords_append (List.cons_ne_nil w []) v

theorem unwords_singleton (w : String) : unwords [w] = w := String.intercalate_singleton

theorem routeBlock_eq (r : StaticRoute) :
    routeBlock r =
      block (unwords ["route", r.destination.text]) ((routeLines r).map unwords) := by
  have hname : "route " ++ r.destination.text = unwords ["route", r.destination.text] :=
    unwords_pair (by decide)
  have hdistance : "distance " ++ toString r.distance.toNat =
      unwords ["distance", toString r.distance.toNat] := unwords_pair (by decide)
  have hdisable : (if r.disabled then [["disable"]] else []).map unwords =
      if r.disabled then ["disable"] else [] := by
    rw [apply_ite (List.map unwords), List.map_singleton, unwords_singleton, List.map_nil]
  rw [routeBlock, hname, hdistance, routeLines, List.map_cons, List.map_append, hdisable,
    apply_ite (List.map unwords)]
  rfl

/-- The words of a route block make up the path of the route. -/
theorem routeLines_flatten (r : StaticRoute) :
    ["protocols", "static", "route", r.destination.text] ++ (routeLines r).flatten =
      r.pathWords ++ if r.disabled then ["disable"] else [] := by
  rw [routeLines, List.flatten_cons, List.flatten_append, StaticRoute.pathWords, List.append_assoc,
    List.append_assoc, apply_ite List.flatten, apply_ite List.flatten]
  rfl

section RouteBlock

variable {names : List String} {r : StaticRoute}

theorem mem_routeLines_tail {ws : List String} (h : ws ∈ (routeLines r).tail) :
    ws = ["distance", toString r.distance.toNat] ∨ ws = ["disable"] := by
  rcases List.mem_append.mp h with h | h
  · split at h
    · exact absurd h List.not_mem_nil
    · exact .inl (List.mem_singleton.mp h)
  · split at h
    · exact .inr (List.mem_singleton.mp h)
    · exact absurd h List.not_mem_nil

theorem plainWord_routeLines (h : ∀ name, r.target = .interface name → PlainWord name) :
    ∀ ws ∈ routeLines r, ∀ w ∈ ws, PlainWord w := by
  intro ws hws
  rcases List.mem_cons.mp hws with rfl | hws
  · exact plainWord_target h
  · rcases mem_routeLines_tail hws with rfl | rfl
    · exact plainWord_pair (by decide) r.distance.plainWord_toString
    · exact plainWord_singleton (by decide)

/-- The first word of a line in a route block, and that it opens no comment. -/
theorem routeLines_cons :
    ∀ ws ∈ routeLines r, ∃ w vs, ws = w :: vs ∧ w.toList.head? ≠ some '#' := by
  intro ws hws
  rcases List.mem_cons.mp hws with rfl | hws
  · cases r.target with
    | nextHop g => exact ⟨_, _, rfl, by decide⟩
    | interface name => exact ⟨_, _, rfl, by decide⟩
  · rcases mem_routeLines_tail hws with rfl | rfl
    · exact ⟨_, _, rfl, by decide⟩
    · exact ⟨_, _, rfl, by decide⟩

/-- Only the first line of a route block names a target. -/
theorem routeLines_tail : ∀ ws ∈ (routeLines r).tail, isTargetWords ws = false := by
  intro ws hws
  rcases mem_routeLines_tail hws with rfl | rfl
  · rfl
  · rfl

/-- The block of a route reads as one path, which lists the route and switches it off if it is
disabled. -/
theorem readsAs_routeBlock
    (hn : ∀ name, r.target = .interface name → name ∈ names ∧ PlainWord name) :
    ReadsAs names ["protocols", "static"] (routeBlock r) (routeEdits .hierarchical r) := by
  have hplain := plainWord_routeLines fun name ht => (hn name ht).2
  have hheader : ∀ w ∈ ["route", r.destination.text], PlainWord w :=
    plainWord_pair (by decide) r.destination.plainWord_text
  have hwords : ((routeLines r).map unwords).map words = routeLines r := by
    rw [List.map_map]
    exact (List.map_congr_left (g := id) fun ws hws => words_of_plain (hplain ws hws)).trans
      (List.map_id _)
  rw [routeBlock_eq]
  refine ⟨readable_block hheader (by decide) ?_, fun stack ls rest hin hls => ?_⟩
  · intro l hl
    obtain ⟨ws, hws, rfl⟩ := List.mem_map.mp hl
    obtain ⟨w, vs, rfl, hw⟩ := routeLines_cons ws hws
    exact readable_of_plain (hplain _ hws) hw
  · obtain ⟨first, middle, last, rfl, hfirst, hmiddle, hlast⟩ :=
      lines_of_block hheader (by decide) hls
    rw [hwords] at hmiddle
    -- The block opens with no children, gathers the lines of its body, and is one path when it
    -- closes.
    obtain ⟨opener, header, hpath, hopen⟩ :=
      readLine_open (by rw [hin]; rfl) (List.cons_ne_nil _ _) hfirst
    have hin' : values (currentPath stack ++ header) =
        ["protocols", "static", "route", r.destination.text] := by
      rw [values_append, hin, hpath]
      rfl
    have hroute : Block.isRoute ⟨opener, currentPath stack ++ header, middle⟩ = true := by
      rw [isRoute_eq, hin']
      rfl
    obtain ⟨path, hclosed, hvalues⟩ := routePath_of_children
      (b := ⟨opener, currentPath stack ++ header, middle⟩) hmiddle routeLines_tail
    have hlines : ∀ l ∈ middle, ∀ w ∈ values l, PlainWord w := fun l hl =>
      hplain _ (hmiddle ▸ List.mem_map_of_mem hl)
    have hchildren := blockPaths_children hlines
      (b := ⟨opener, currentPath stack ++ header, []⟩) hroute stack (last :: rest)
    have hclose := readLine_close hlast ⟨opener, currentPath stack ++ header, middle⟩ stack
    rw [if_pos hroute, hclosed] at hclose
    refine ⟨[path], ?_, ?_⟩
    · rw [List.cons_append, List.append_assoc, List.singleton_append, blockPaths_cons hopen,
        hchildren, List.nil_append, blockPaths_cons hclose]
      rfl
    · have hroutePath : values path = r.pathWords ++ if r.disabled then ["disable"] else [] := by
        rw [hvalues, hin', List.append_assoc, ← routeLines_flatten]
        rfl
      exact says_route hroutePath fun name ht => (hn name ht).1

end RouteBlock

/-! ## The whole text -/

section Hierarchical

variable {names : List String} {c : Configuration}

theorem readsAs_interfaceBlock {i : Interface} (hi : i.name ∈ names) (hp : PlainWord i.name) :
    ReadsAs names ["interfaces"] (interfaceBlock i) (interfaceEdits i) := by
  have hname : "ethernet " ++ i.name = unwords ["ethernet", i.name] := unwords_pair (by decide)
  have hheader : ∀ w ∈ ["ethernet", i.name], PlainWord w := plainWord_pair (by decide) hp
  rw [interfaceBlock, hname]
  apply readsAs_blockUnlessEmpty hheader (by decide) rfl rfl
  apply ReadsAs.append
  · cases i.address with
    | none => exact readsAs_nil
    | some a =>
      have hline : "address " ++ a.text = unwords ["address", a.text] := unwords_pair (by decide)
      have hwords : ∀ w ∈ ["address", a.text], PlainWord w :=
        plainWord_pair (by decide) a.plainWord_text
      simp only [Option.map_some, Option.toList_some, hline]
      exact readsAs_leaf rfl hwords (by decide) fun path hpath => says_address hpath hi
  · split
    · have hwords : ∀ w ∈ ["disable"], PlainWord w := plainWord_singleton (by decide)
      rw [← unwords_singleton "disable"]
      exact readsAs_leaf rfl hwords (by decide) fun path hpath => says_disable hpath hi
    · exact readsAs_nil

theorem readsAs_namedBlock {inside body : List String} {es : List (String × Edit)} {w : String}
    (hp : PlainWord w) (hw : w.toList.head? ≠ some '#') (hr : isRoutePath inside = false)
    (hr' : isRoutePath (inside ++ [w]) = false) (h : ReadsAs names (inside ++ [w]) body es) :
    ReadsAs names inside (blockUnlessEmpty w body) es := by
  have hblock := readsAs_blockUnlessEmpty (plainWord_singleton hp) hw hr hr' h
  rwa [unwords_singleton] at hblock

/-- The nested blocks of a configuration read as its edits. -/
theorem readsAs_blocks (hc : Writable names c) :
    ReadsAs names [] (blocks c) (generatedEdits .hierarchical c) := by
  have hinterfaces : ReadsAs names ["interfaces"] (c.interfaces.flatMap interfaceBlock)
      (c.interfaces.flatMap interfaceEdits) :=
    readsAs_flatMap fun i hi => readsAs_interfaceBlock (hc.known i hi) (hc.plain i hi)
  have hroutes : ReadsAs names ["protocols", "static"] (c.routes.entries.flatMap routeBlock)
      (c.routes.entries.flatMap (routeEdits .hierarchical)) :=
    readsAs_flatMap fun r hr => readsAs_routeBlock (hc.targets r hr)
  have hstatic : ReadsAs names ["protocols"]
      (blockUnlessEmpty "static" (c.routes.entries.flatMap routeBlock)) _ :=
    readsAs_namedBlock (by decide) (by decide) rfl rfl hroutes
  have hprotocols : ReadsAs names [] (blockUnlessEmpty "protocols"
      (blockUnlessEmpty "static" (c.routes.entries.flatMap routeBlock))) _ :=
    readsAs_namedBlock (by decide) (by decide) rfl rfl hstatic
  apply (readsAs_namedBlock (by decide) (by decide) rfl rfl hinterfaces).append
  -- The model leaves the two outer blocks out together, for no route at all.
  have hsame : blockUnlessEmpty "protocols"
      (blockUnlessEmpty "static" (c.routes.entries.flatMap routeBlock)) =
      if c.routes.entries.flatMap routeBlock = [] then []
      else block "protocols" (block "static" (c.routes.entries.flatMap routeBlock)) := by
    by_cases he : c.routes.entries.flatMap routeBlock = []
    · rw [if_pos he, blockUnlessEmpty, blockUnlessEmpty, if_pos he, if_pos rfl]
    · have hne : block "static" (c.routes.entries.flatMap routeBlock) ≠ [] := List.cons_ne_nil _ _
      rw [if_neg he, blockUnlessEmpty, blockUnlessEmpty, if_neg he, if_neg hne]
  exact hsame ▸ hprotocols

theorem parse_hierarchical (hc : Writable names c) :
    ∃ ds, parse .hierarchical names (generate .hierarchical c) = .ok ds ∧
      edits ds = generatedEdits .hierarchical c := by
  have hread := readsAs_blocks hc
  obtain ⟨ps, hps, hsays⟩ :=
    hread.read [] (tokenize (generate .hierarchical c)) [] rfl (values_tokenize hread.readable)
  rw [List.append_nil] at hps
  refine parse_of_says (hps.trans ?_) hsays
  rw [blockPaths, List.append_nil]
  rfl

theorem opener_mem_blocks (h : blocks c ≠ []) :
    ∃ w ∈ ["interfaces", "protocols"], unwords [w] ++ " \x7b" ∈ blocks c := by
  by_cases hi : c.interfaces.flatMap interfaceBlock = []
  · by_cases hr : c.routes.entries.flatMap routeBlock = []
    · refine absurd ?_ h
      rw [blocks, blockUnlessEmpty, if_pos hi, if_pos hr, List.append_nil]
    · refine ⟨"protocols", by decide, List.mem_append_right _ ?_⟩
      rw [if_neg hr]
      exact List.mem_cons_self
  · refine ⟨"interfaces", by decide, List.mem_append_left _ ?_⟩
    rw [blockUnlessEmpty, if_neg hi]
    exact List.mem_cons_self

/-- Blocks are recognized by their first brace; without any there is nothing to recognize. -/
theorem detectFormat_hierarchical (hc : Writable names c) (h : blocks c ≠ []) :
    detectFormat (generate .hierarchical c) = .hierarchical := by
  obtain ⟨w, hw, hmem⟩ := opener_mem_blocks h
  have hnames : ∀ v ∈ ["interfaces", "protocols"], PlainWord v ∧ v.toList.head? ≠ some '#' := by
    decide
  have hplain := hnames w hw
  have hopens : opensBlock (words (unwords [w] ++ " \x7b")) = true := by
    rw [(plainOpener (plainWord_singleton hplain.1) hplain.2).2]
    simp [opensBlock]
  have hany : ((blocks c).map words).any opensBlock = true := by
    rw [List.any_map]
    exact List.any_eq_true.mpr ⟨_, hmem, hopens⟩
  rw [detectFormat_eq, generate, values_tokenize (readsAs_blocks hc).readable, if_pos hany]

/-- Generated text is read back as the edits that it was generated from, in the notation that it is
in or the one that it shows. -/
theorem parse_generate (hc : Writable names c) (format : Format) {format? : Option Format}
    (hf : format? = some format ∨ format? = none) :
    ∃ ds, parse (format?.getD (detectFormat (generate format c))) names (generate format c) =
        .ok ds ∧ edits ds = generatedEdits format c := by
  rcases hf with rfl | rfl
  · cases format with
    | commands => exact parse_commands hc
    | hierarchical => exact parse_hierarchical hc
  · rw [Option.getD_none]
    cases format with
    | commands =>
      rw [detectFormat_commands hc]
      exact parse_commands hc
    | hierarchical =>
      by_cases hb : blocks c = []
      · have hread := readsAs_blocks hc
        rw [hb] at hread
        refine ⟨[], ?_, hread.edits_eq_nil.symm⟩
        rw [generate, hb]
        rfl
      · rw [detectFormat_hierarchical hc hb]
        exact parse_hierarchical hc

end Hierarchical

end RouterConsole.Config
