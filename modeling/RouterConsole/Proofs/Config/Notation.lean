import RouterConsole.Config.Notation
import RouterConsole.Proofs.Config.FaultTokens

/-!
# What both notations make of a text

Whatever the notation, the paths of a text hold at least one token each, all their tokens are words,
and every fault is noticed at a token. So a text ends in directives that its paths ask for, or is
refused at one of its tokens. What one line of nested blocks can do is said once (`LineRead`).
-/
namespace RouterConsole.Config

/-- A reading whose paths all have a token and whose fault, if any, is at one. -/
structure PathReading.Sound (r : PathReading) : Prop where
  nonempty : [] ∉ r.paths
  ofText : ∀ e, r.fault = some e → e.OfText

namespace PathReading

theorem sound_fault {e : Error} (h : e.OfText) : Sound ⟨[], some e⟩ where
  nonempty := List.not_mem_nil
  ofText _ he := Option.some.inj he ▸ h

theorem Sound.after {r : PathReading} (h : r.Sound) {path : Option (List Token)}
    (hp : ∀ p, path = some p → p ≠ []) : (r.after path).Sound where
  nonempty hn := by
    rcases List.mem_append.mp hn with hn | hn
    · exact hp [] (Option.mem_toList.mp hn) rfl
    · exact h.nonempty hn
  ofText := h.ofText

end PathReading

theorem commandPath_eq_ok_iff {t : Token} {ts path : List Token} :
    commandPath (t :: ts) = .ok path ↔ t.value = "set" ∧ ts ≠ [] ∧ path = ts := by
  unfold commandPath
  dsimp only
  split
  · rename_i ht
    simp [ht]
  · rename_i ht
    split
    · rename_i hts
      simp [hts]
    · rename_i hts
      simp [Decidable.not_not.mp ht, hts, eq_comm]

theorem commandPath_ends {l : List Token} (h : l ≠ []) :
    Ends (fun path => path ≠ []) (commandPath l) := by
  cases l with
  | nil => exact absurd rfl h
  | cons t ts =>
    rw [commandPath]
    split
    · exact ofText_at (by trivial) t
    · split
      · exact ofText_at (by trivial) t
      · assumption

theorem commandPaths_sound {ls : List (List Token)} (h : [] ∉ ls) : (commandPaths ls).Sound := by
  induction ls with
  | nil => exact ⟨List.not_mem_nil, nofun⟩
  | cons l ls ih =>
    have hl : l ≠ [] := fun hl => h (hl ▸ List.mem_cons_self)
    have hpath := commandPath_ends hl
    have hrest := ih fun hn => h (List.mem_cons_of_mem l hn)
    unfold commandPaths
    cases hc : commandPath l with
    | error e => exact PathReading.sound_fault (hpath.of_error hc)
    | ok path =>
      refine hrest.after fun p hp => ?_
      obtain rfl := Option.some.inj hp
      exact hpath.of_ok hc

theorem isTargetLine_nil : isTargetLine [] = false := rfl

/-- A closed route block names its target, and each line that does so has a token. -/
theorem routePath_of_block_ends (b : Block) : Ends (fun path => path ≠ []) b.routePath := by
  have hline : ∀ l ∈ b.children.filter isTargetLine, l ≠ [] := by
    rintro l hl rfl
    have ht := (List.mem_filter.mp hl).2
    rw [isTargetLine_nil] at ht
    cases ht
  unfold Block.routePath
  cases hf : b.children.filter isTargetLine with
  | nil => exact ofText_at (by trivial) b.opener
  | cons target others =>
    cases others with
    | nil =>
      have ht : target ≠ [] := hline target (hf ▸ List.mem_cons_self)
      intro hn
      rw [List.append_eq_nil_iff, List.append_eq_nil_iff] at hn
      exact ht hn.1.2
    | cons second others =>
      have hs : second ≠ [] := hline second (hf ▸ List.mem_cons_of_mem _ List.mem_cons_self)
      obtain ⟨t, ts, rfl⟩ := List.exists_cons_of_ne_nil hs
      exact ofText_at (by trivial) t

/-- The path that the innermost open block contributes. -/
def currentPath (stack : List Block) : List Token := stack.head?.elim [] (·.path)

/-- What a line that is read does to the open blocks, and the path that it completes. -/
inductive LineRead (l : List Token) : List Block → List Block → Option (List Token) → Prop
  | closeRoute {brace : Token} {b : Block} {outer : List Block} {path : List Token}
      (closes : closer? l = some brace) (isRoute : b.isRoute = true)
      (reads : b.routePath = .ok path) : LineRead l (b :: outer) outer (some path)
  | close {brace : Token} {b : Block} {outer : List Block} (closes : closer? l = some brace)
      (noRoute : b.isRoute = false) : LineRead l (b :: outer) outer none
  | opens {brace : Token} {words : List Token} {stack : List Block} (keepsOpen : closer? l = none)
      (opens : splitOpener l = some (words, brace)) (named : words ≠ [])
      (noRoute : stack.head?.any (·.isRoute) = false) :
      LineRead l stack ({ opener := brace, path := currentPath stack ++ words } :: stack) none
  | child {b : Block} {outer : List Block} (keepsOpen : closer? l = none)
      (opensNone : splitOpener l = none) (braceless : l.find? hasBrace = none)
      (isRoute : b.isRoute = true) :
      LineRead l (b :: outer) ({ b with children := b.children ++ [l] } :: outer) none
  | leaf {stack : List Block} (keepsOpen : closer? l = none) (opensNone : splitOpener l = none)
      (braceless : l.find? hasBrace = none) (noRoute : stack.head?.any (·.isRoute) = false) :
      LineRead l stack stack (some (currentPath stack ++ l))

/-- A line of nested blocks is read in one of these ways, or refused at a token. -/
theorem readLine_ends (stack : List Block) (l : List Token) :
    Ends (fun p => LineRead l stack p.1 p.2) (readLine stack l) := by
  unfold readLine
  cases hc : closer? l with
  | some brace =>
    cases stack with
    | nil => exact ofText_at (by trivial) brace
    | cons b outer =>
      dsimp only
      cases hb : b.isRoute with
      | false =>
        rw [if_neg Bool.false_ne_true]
        exact LineRead.close hc hb
      | true =>
        rw [if_pos rfl]
        cases hp : b.routePath with
        | error e =>
          have he : e.OfText := (routePath_of_block_ends b).of_error hp
          exact he
        | ok path => exact LineRead.closeRoute hc hb hp
  | none =>
    cases ho : splitOpener l with
    | some opened =>
      obtain ⟨words, brace⟩ := opened
      dsimp only
      split
      · exact ofText_at (by trivial) brace
      · rename_i hnamed
        split
        · exact ofText_at (by trivial) brace
        · rename_i hr
          exact LineRead.opens hc ho hnamed (Bool.eq_false_iff.mpr hr)
    | none =>
      cases hf : l.find? hasBrace with
      | some t => exact ofText_at (by trivial) t
      | none =>
        cases stack with
        | nil => exact LineRead.leaf hc ho hf rfl
        | cons b outer =>
          dsimp only
          cases hb : b.isRoute with
          | true =>
            rw [if_pos rfl]
            exact LineRead.child hc ho hf hb
          | false =>
            rw [if_neg Bool.false_ne_true]
            exact LineRead.leaf hc ho hf hb

theorem LineRead.path_ne_nil {l : List Token} {stack stack' : List Block}
    {path : Option (List Token)} (h : LineRead l stack stack' path) (hl : l ≠ []) :
    ∀ p, path = some p → p ≠ [] := by
  cases h with
  | @closeRoute _ b _ _ _ _ reads =>
    intro p hp
    obtain rfl := Option.some.inj hp
    exact (routePath_of_block_ends b).of_ok reads
  | leaf =>
    intro p hp
    obtain rfl := Option.some.inj hp
    exact fun hn => hl (List.append_eq_nil_iff.mp hn).2
  | close | opens | child => exact nofun

theorem blockPaths_sound {ls : List (List Token)} (h : [] ∉ ls) (stack : List Block) :
    (blockPaths stack ls).Sound := by
  -- A line may open or close a block, so the lines after it are read on another stack.
  induction ls generalizing stack with
  | nil =>
    refine ⟨List.not_mem_nil, fun e he => ?_⟩
    obtain ⟨b, -, rfl⟩ := Option.map_eq_some_iff.mp he
    exact ofText_at (by trivial) b.opener
  | cons l ls ih =>
    have hl : l ≠ [] := fun hl => h (hl ▸ List.mem_cons_self)
    have hline := readLine_ends stack l
    unfold blockPaths
    cases hr : readLine stack l with
    | error e => exact PathReading.sound_fault (hline.of_error hr)
    | ok opened =>
      obtain ⟨stack', path⟩ := opened
      exact (ih (fun hn => h (List.mem_cons_of_mem l hn)) stack').after
        ((hline.of_ok hr).path_ne_nil hl)

theorem readPaths_sound (format : Format) (text : String) : (readPaths format text).Sound := by
  cases format with
  | commands => exact commandPaths_sound (nil_not_mem_tokenize text)
  | hierarchical => exact blockPaths_sound (nil_not_mem_tokenize text) []

/-! ## Properties of all tokens

What is read of a text are its tokens and, where a word ends in a brace, the two parts of that word.
So a property of its tokens that is kept by this cut holds of all tokens of paths, and of those at
which faults are noticed. -/

/-- A property that a word and the brace behind it have each if they have it together. -/
structure KeptByCut (P : Token → Prop) : Prop where
  word : ∀ (t : Token) (w : List Char), t.value.toList = w ++ ['\x7b'] → w ≠ [] → P t →
    P { t with value := String.ofList w }
  brace : ∀ (t : Token) (w : List Char), t.value.toList = w ++ ['\x7b'] → P t →
    P ⟨"\x7b", t.line, t.column + w.length⟩

/-- An open block all of whose tokens have a property. -/
structure Block.Each (P : Token → Prop) (b : Block) : Prop where
  opener : P b.opener
  path : ∀ t ∈ b.path, P t
  children : ∀ l ∈ b.children, ∀ t ∈ l, P t

/-- A reading whose tokens have a property, as has the token of its fault. -/
structure PathReading.Each (P : Token → Prop) (r : PathReading) : Prop where
  paths : ∀ path ∈ r.paths, ∀ t ∈ path, P t
  fault : ∀ e, r.fault = some e → e.NoticedAt P

section Each

variable {P : Token → Prop} {l : List Token} {stack : List Block}

theorem PathReading.each_fault {e : Error} (h : e.NoticedAt P) : Each P ⟨[], some e⟩ where
  paths := nofun
  fault e' he := by
    obtain rfl := Option.some.inj he
    exact h

theorem PathReading.Each.after {r : PathReading} (h : r.Each P) {path : Option (List Token)}
    (hp : ∀ p, path = some p → ∀ t ∈ p, P t) : (r.after path).Each P where
  paths p hmem := by
    rcases List.mem_append.mp hmem with hmem | hmem
    · exact hp p (Option.mem_toList.mp hmem)
    · exact h.paths p hmem
  fault := h.fault

theorem mem_of_mem_commandPath {path : List Token} (h : commandPath l = .ok path) {t : Token}
    (ht : t ∈ path) : t ∈ l := by
  cases l with
  | nil =>
    obtain rfl := Except.ok.inj h
    exact ht
  | cons u us =>
    obtain ⟨-, -, rfl⟩ := commandPath_eq_ok_iff.mp h
    exact List.mem_cons_of_mem u ht

theorem commandPath_failsAt (hl : ∀ t ∈ l, P t) : FailsAt P (commandPath l) := by
  cases l with
  | nil => exact .ok []
  | cons t ts =>
    rw [commandPath]
    split
    · exact .error (noticedAt_at _ (hl t List.mem_cons_self))
    · split
      · exact .error (noticedAt_at _ (hl t List.mem_cons_self))
      · exact .ok ts

theorem commandPaths_each {ls : List (List Token)} (h : ∀ l ∈ ls, ∀ t ∈ l, P t) :
    (commandPaths ls).Each P := by
  induction ls with
  | nil => exact ⟨nofun, nofun⟩
  | cons l ls ih =>
    obtain ⟨hl, hls⟩ := List.forall_mem_cons.mp h
    unfold commandPaths
    cases hc : commandPath l with
    | error e => exact PathReading.each_fault (commandPath_failsAt hl e hc)
    | ok path =>
      refine (ih hls).after fun p hp t ht => ?_
      obtain rfl := Option.some.inj hp
      exact hl t (mem_of_mem_commandPath hc ht)

theorem eq_of_closer? {brace : Token} (h : closer? l = some brace) : l = [brace] := by
  unfold closer? at h
  split at h
  · split at h
    · obtain rfl := Option.some.inj h
      rfl
    · cases h
  · cases h

/-- What stands before the brace of an opener, also in the same word, and the brace itself. -/
theorem splitOpener_each (hP : KeptByCut P) (hl : ∀ t ∈ l, P t) {words : List Token} {brace : Token}
    (h : splitOpener l = some (words, brace)) : (∀ t ∈ words, P t) ∧ P brace := by
  obtain ⟨last, hlast, h⟩ := Option.bind_eq_some_iff.mp h
  have hbefore : ∀ t ∈ l.dropLast, P t := fun t ht => hl t (List.dropLast_subset l ht)
  have hword := hl last (List.mem_of_getLast? hlast)
  split at h
  · rename_i rest hrest
    have hvalue : last.value.toList = rest.reverse ++ ['\x7b'] := by
      rw [← List.reverse_reverse last.value.toList, hrest, List.reverse_cons]
    split at h
    · obtain ⟨rfl, rfl⟩ := Prod.mk.inj (Option.some.inj h)
      exact ⟨hbefore, hword⟩
    · rename_i hne
      obtain ⟨rfl, rfl⟩ := Prod.mk.inj (Option.some.inj h)
      have hcut := hP.word last _ hvalue (by simpa using hne) hword
      have hbrace := hP.brace last _ hvalue hword
      rw [List.length_reverse] at hbrace
      exact ⟨List.forall_mem_append.mpr ⟨hbefore, List.forall_mem_singleton.mpr hcut⟩, hbrace⟩
  · cases h

theorem Block.Each.routePath {b : Block} (hb : b.Each P) {path : List Token}
    (h : b.routePath = .ok path) : ∀ t ∈ path, P t := by
  have hline : ∀ l ∈ b.children.filter isTargetLine, ∀ t ∈ l, P t := fun l hl =>
    hb.children l (List.mem_filter.mp hl).1
  unfold Block.routePath at h
  split at h
  · cases h
  · rename_i target htarget
    obtain rfl := Except.ok.inj h
    simp only [List.forall_mem_append]
    refine ⟨⟨hb.path, hline target (htarget ▸ List.mem_cons_self)⟩, fun t ht => ?_⟩
    obtain ⟨l, hl, ht⟩ := List.mem_flatten.mp ht
    exact hb.children l (List.mem_filter.mp hl).1 t ht
  · cases h

/-- A route block without a target is refused at its brace, and one with several at the second. -/
theorem Block.Each.routePath_failsAt {b : Block} (hb : b.Each P) : FailsAt P b.routePath := by
  intro e he
  obtain ⟨fault, t, rfl, -⟩ := (routePath_of_block_ends b).of_error he
  unfold Block.routePath at he
  split at he
  · obtain ⟨-, ht⟩ := Error.mk.inj (Except.error.inj he)
    obtain rfl := Option.some.inj ht
    exact noticedAt_at _ hb.opener
  · cases he
  · rename_i target second others htargets
    obtain ⟨-, ht⟩ := Error.mk.inj (Except.error.inj he)
    have hsecond : second ∈ b.children.filter isTargetLine :=
      htargets ▸ List.mem_cons_of_mem target List.mem_cons_self
    exact noticedAt_at _
      (hb.children second (List.mem_filter.mp hsecond).1 t (List.mem_of_head? ht))

/-- The open blocks and the completed path have the property after the line that they had before. -/
theorem LineRead.each {stack' : List Block} {path : Option (List Token)}
    (h : LineRead l stack stack' path) (hP : KeptByCut P) (hs : ∀ b ∈ stack, b.Each P)
    (hl : ∀ t ∈ l, P t) : (∀ b ∈ stack', b.Each P) ∧ ∀ p, path = some p → ∀ t ∈ p, P t := by
  have hcurrent : ∀ t ∈ currentPath stack, P t := by
    cases stack with
    | nil => exact nofun
    | cons b outer => exact (hs b List.mem_cons_self).path
  cases h with
  | closeRoute _ _ hpath =>
    obtain ⟨hb, houter⟩ := List.forall_mem_cons.mp hs
    refine ⟨houter, fun p hp => ?_⟩
    obtain rfl := Option.some.inj hp
    exact hb.routePath hpath
  | close => exact ⟨(List.forall_mem_cons.mp hs).2, nofun⟩
  | opens _ hopen =>
    obtain ⟨hwords, hbrace⟩ := splitOpener_each hP hl hopen
    have hpath := List.forall_mem_append.mpr ⟨hcurrent, hwords⟩
    exact ⟨List.forall_mem_cons.mpr ⟨⟨hbrace, hpath, nofun⟩, hs⟩, nofun⟩
  | child =>
    obtain ⟨hb, houter⟩ := List.forall_mem_cons.mp hs
    have hchildren := List.forall_mem_append.mpr ⟨hb.children, List.forall_mem_singleton.mpr hl⟩
    exact ⟨List.forall_mem_cons.mpr ⟨⟨hb.opener, hb.path, hchildren⟩, houter⟩, nofun⟩
  | leaf =>
    refine ⟨hs, fun p hp => ?_⟩
    obtain rfl := Option.some.inj hp
    exact List.forall_mem_append.mpr ⟨hcurrent, hl⟩

theorem readLine_failsAt (hP : KeptByCut P) (hs : ∀ b ∈ stack, b.Each P) (hl : ∀ t ∈ l, P t) :
    FailsAt P (readLine stack l) := by
  unfold readLine
  cases hc : closer? l with
  | some brace =>
    cases stack with
    | nil => exact .error (noticedAt_at _ (hl brace (eq_of_closer? hc ▸ List.mem_cons_self)))
    | cons b outer =>
      dsimp only
      split
      · exact (hs b List.mem_cons_self).routePath_failsAt.map
      · exact .ok _
  | none =>
    cases ho : splitOpener l with
    | some opened =>
      obtain ⟨words, brace⟩ := opened
      have hbrace := (splitOpener_each hP hl ho).2
      dsimp only
      split
      · exact .error (noticedAt_at _ hbrace)
      · split
        · exact .error (noticedAt_at _ hbrace)
        · exact .ok _
    | none =>
      cases hf : l.find? hasBrace with
      | some t => exact .error (noticedAt_at _ (hl t (List.mem_of_find?_eq_some hf)))
      | none =>
        cases stack with
        | nil => exact .ok _
        | cons b outer =>
          dsimp only
          split
          · exact .ok _
          · exact .ok _

theorem blockPaths_each (hP : KeptByCut P) {ls : List (List Token)} (h : ∀ l ∈ ls, ∀ t ∈ l, P t)
    (hs : ∀ b ∈ stack, b.Each P) : (blockPaths stack ls).Each P := by
  -- A block that is still open at the end was opened at a token that was read before.
  induction ls generalizing stack with
  | nil =>
    refine ⟨nofun, fun e he => ?_⟩
    obtain ⟨b, hb, rfl⟩ := Option.map_eq_some_iff.mp he
    exact noticedAt_at _ (hs b (List.mem_of_head? hb)).opener
  | cons l ls ih =>
    obtain ⟨hl, hls⟩ := List.forall_mem_cons.mp h
    unfold blockPaths
    cases hr : readLine stack l with
    | error e => exact PathReading.each_fault (readLine_failsAt hP hs hl e hr)
    | ok opened =>
      obtain ⟨stack', path⟩ := opened
      obtain ⟨hstack, hpath⟩ := ((readLine_ends stack l).of_ok hr).each hP hs hl
      exact (ih hls hstack).after hpath

/-- What both notations make of a text has the properties that its tokens have. -/
theorem readPaths_each (hP : KeptByCut P) {text : String} (h : ∀ l ∈ tokenize text, ∀ t ∈ l, P t)
    (format : Format) : (readPaths format text).Each P := by
  cases format with
  | commands => exact commandPaths_each h
  | hierarchical => exact blockPaths_each hP h nofun

end Each

/-- All tokens stand for words. -/
def Worded (ts : List Token) : Prop := ∀ t ∈ ts, Text.IsWord t.value.toList

theorem keptByCut_isWord : KeptByCut fun t => Text.IsWord t.value.toList where
  word t w hvalue hne hword := by
    rw [hvalue] at hword
    rw [String.toList_ofList]
    exact ⟨hne, fun c hc => hword.blank_free c (List.mem_append_left _ hc)⟩
  brace _ _ _ _ := (by decide : Text.IsWord "\x7b".toList)

/-- The paths of a text, in either notation, are made of words. -/
theorem readPaths_worded (format : Format) (text : String) :
    ∀ path ∈ (readPaths format text).paths, Worded path :=
  (readPaths_each keptByCut_isWord (fun _ hl _ ht => isWord_of_mem_tokenize hl ht) format).paths

theorem mapM_ends {α β : Type} {P : β → Prop} {f : α → Except Error β} {l : List α}
    (h : ∀ a ∈ l, Ends P (f a)) : Ends (fun bs => ∀ b ∈ bs, P b) (l.mapM f) := by
  induction l with
  | nil => exact nofun
  | cons a l ih =>
    rw [List.mapM_cons]
    refine (h a List.mem_cons_self).bind fun b hb => ?_
    refine (ih fun c hc => h c (List.mem_cons_of_mem a hc)).bind fun bs hbs => ?_
    intro c hc
    rcases List.mem_cons.mp hc with rfl | hc
    · exact hb
    · exact hbs c hc

/-- The names that can stand in a text. -/
def wordNames (names : List String) : List String := names.filter (Text.IsWord ·.toList)

theorem mem_wordNames {names : List String} {n : String} :
    n ∈ wordNames names ↔ n ∈ names ∧ Text.IsWord n.toList := by
  rw [wordNames, List.mem_filter, decide_eq_true_iff]

theorem mem_wordNames_of_namesOn {names : List String} {path : List Token} (h : Worded path)
    {n : String} (hn : n ∈ namesOn names path) : n ∈ wordNames names := by
  obtain ⟨hmem, hvalue⟩ := mem_namesOn.mp hn
  obtain ⟨t, ht, rfl⟩ := List.mem_map.mp hvalue
  exact mem_wordNames.mpr ⟨hmem, h t ht⟩

/-- A fault in a path comes first, then the fault that ended the reading. -/
theorem parse_eq_bind (format : Format) (names : List String) (text : String) :
    parse format names text = (readPaths format text).paths.mapM (interpret names) >>= fun ds =>
      (readPaths format text).fault.elim (.ok (ds.filterMap id)) .error := by
  unfold parse
  dsimp only
  cases (readPaths format text).paths.mapM (interpret names) with
  | error e => rfl
  | ok ds => cases (readPaths format text).fault <;> rfl

/-- A text has directives that its paths ask for, or is refused at a token. -/
theorem parse_ends_read (format : Format) (names : List String) (text : String) :
    Ends (fun ds => ∀ d ∈ ds, ∃ path ∈ (readPaths format text).paths, PathAsks names path (some d))
      (parse format names text) := by
  have hsound := readPaths_sound format text
  have hpaths : ∀ path ∈ (readPaths format text).paths,
      Ends (fun d? => ∃ path ∈ (readPaths format text).paths, PathAsks names path d?)
        (interpret names path) := by
    intro path hp
    have hne : path ≠ [] := fun hn => hsound.nonempty (hn ▸ hp)
    exact (interpret_ends hne).mono fun d? hd => ⟨path, hp, hd⟩
  rw [parse_eq_bind]
  refine (mapM_ends hpaths).bind fun ds hds => ?_
  cases hf : (readPaths format text).fault with
  | some e => exact hsound.ofText e hf
  | none =>
    intro d hmem
    obtain ⟨_, hd?, rfl⟩ := List.mem_filterMap.mp hmem
    exact hds (some d) hd?

/-- A text has directives that paths of words ask for, or is refused at a token. -/
theorem parse_ends_asked (format : Format) (names : List String) (text : String) :
    Ends (fun ds => ∀ d ∈ ds, ∃ path, Worded path ∧ PathAsks names path (some d))
      (parse format names text) :=
  (parse_ends_read format names text).mono fun _ hds d hd =>
    let ⟨path, hp, hasks⟩ := hds d hd
    ⟨path, readPaths_worded format text path hp, hasks⟩

/-- The directives of a text are about interfaces whose names are words. -/
theorem parse_ends_words (format : Format) (names : List String) (text : String) :
    Ends (fun ds => ∀ d ∈ ds, d.Fits (wordNames names)) (parse format names text) := by
  refine (parse_ends_asked format names text).mono fun ds hds d hd => ?_
  obtain ⟨path, hpath, hasks⟩ := hds d hd
  exact hasks.fits.mono fun n => mem_wordNames_of_namesOn hpath

/-- A text has directives that fit the router, or is refused at a token. -/
theorem parse_ends (format : Format) (names : List String) (text : String) :
    Ends (fun ds => ∀ d ∈ ds, d.Fits names) (parse format names text) :=
  (parse_ends_words format names text).mono fun _ hds d hd =>
    (hds d hd).mono fun _ hn => (mem_wordNames.mp hn).1

theorem parse_congr {names names' : List String} (h : ∀ n, n ∈ names ↔ n ∈ names')
    (format : Format) (text : String) : parse format names text = parse format names' text := by
  rw [parse, parse, interpret_congr h]

end RouterConsole.Config
