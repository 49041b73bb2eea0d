import RouterConsole.Text.Blank
import RouterConsole.Text.Line
import RouterConsole.Text.Split

/-!
# Reading back what was joined

Cutting a text into parts undoes joining them, as long as no part holds what is cut at: words that
are joined by spaces, lines that are ended by line feeds, parts with a separator between them.
-/
namespace RouterConsole.Text

/-- A text that is one word: not empty, and without blanks. -/
structure IsWord (w : List Char) : Prop where
  nonempty : w ≠ []
  blank_free : ∀ c ∈ w, isBlank c = false

instance (w : List Char) : Decidable (IsWord w) :=
  decidable_of_iff (w ≠ [] ∧ w.all (!isBlank ·) = true) <| by
    simp only [List.all_eq_true, Bool.not_eq_true']
    exact ⟨fun h => ⟨h.1, h.2⟩, fun h => ⟨h.nonempty, h.blank_free⟩⟩

theorem isBlank_of_isLineBreak {c : Char} (h : isLineBreak c = true) : isBlank c = true := by
  simp only [isLineBreak, isBlank, Bool.or_eq_true, Bool.and_eq_true, decide_eq_true_eq,
    beq_iff_eq] at h ⊢
  omega

theorem isWord_of_mem_words {s w : String} (h : w ∈ words s) : IsWord w.toList := by
  obtain ⟨cs, hcs, rfl⟩ := List.mem_map.mp h
  rw [String.toList_ofList]
  exact ⟨(of_mem_splitWords hcs).1, (of_mem_splitWords hcs).2⟩

/-- A word is cut off where a blank follows it or nothing does. -/
theorem splitWords_word {w rest : List Char} (hw : IsWord w)
    (hr : ∀ b ∈ rest.head?, isBlank b = true) :
    splitWords (w ++ rest) = w :: splitWords rest := by
  obtain ⟨hne, hblank⟩ := hw
  induction w with
  | nil => exact absurd rfl hne
  | cons c w ih =>
    have hc : isBlank c = false := hblank c List.mem_cons_self
    rw [List.cons_append, splitWords.eq_def]
    simp only [hc, Bool.false_eq_true, if_false]
    cases w with
    | nil =>
      cases rest with
      | nil => rfl
      | cons b bs =>
        have hb : isBlank b = true := hr b rfl
        simp only [List.nil_append, hb, if_true]
    | cons d w =>
      have hd : isBlank d = false := hblank d (by simp)
      have hrest := ih (List.cons_ne_nil d w) fun x hx => hblank x (List.mem_cons_of_mem c hx)
      simp only [List.cons_append] at hrest ⊢
      simp only [hd, Bool.false_eq_true, if_false, hrest]

theorem splitWords_blanks {bs : List Char} (h : bs.all isBlank = true) (cs : List Char) :
    splitWords (bs ++ cs) = splitWords cs := by
  induction bs with
  | nil => rfl
  | cons b bs ih =>
    obtain ⟨hb, hbs⟩ := Bool.and_eq_true_iff.mp h
    rw [List.cons_append, splitWords_blank hb]
    exact ih hbs

theorem isWord_takeWhile {c : Char} (hc : isBlank c = false) (cs : List Char) :
    IsWord (c :: cs.takeWhile (!isBlank ·)) := by
  refine ⟨List.cons_ne_nil _ _, fun d hd => ?_⟩
  rcases List.mem_cons.mp hd with rfl | hd
  · exact hc
  · simpa using List.all_eq_true.mp List.all_takeWhile d hd

/-- After the other characters comes a blank, if anything does. -/
theorem isBlank_of_head?_dropWhile {cs : List Char} {b : Char}
    (hb : b ∈ (cs.dropWhile (!isBlank ·)).head?) : isBlank b = true := by
  have h := List.head?_dropWhile_not (!isBlank ·) cs
  rw [hb] at h
  simpa using h

/-- The first word goes up to the first blank. -/
theorem splitWords_cons {c : Char} (hc : isBlank c = false) (cs : List Char) :
    splitWords (c :: cs) =
      (c :: cs.takeWhile (!isBlank ·)) :: splitWords (cs.dropWhile (!isBlank ·)) := by
  rw [← splitWords_word (isWord_takeWhile hc cs) fun _ => isBlank_of_head?_dropWhile,
    List.cons_append, List.takeWhile_append_dropWhile]

/-- A text has no words if it is all blanks, and only then. -/
theorem splitWords_eq_nil_iff {cs : List Char} : splitWords cs = [] ↔ cs.all isBlank = true := by
  induction cs with
  | nil => simp
  | cons c cs ih =>
    cases hc : isBlank c with
    | true => rw [splitWords_blank hc, ih, List.all_cons, hc, Bool.true_and]
    | false => simp [splitWords_cons hc, hc]

/-- Blanks at the end of a text are not seen. -/
theorem splitWords_append_blanks {bs : List Char} (h : bs.all isBlank = true) (cs : List Char) :
    splitWords (cs ++ bs) = splitWords cs := by
  have hnil : splitWords bs = [] := by
    have hbs := splitWords_blanks h []
    rwa [List.append_nil] at hbs
  induction cs with
  | nil => rw [List.nil_append, hnil, splitWords_nil]
  | cons c cs ih =>
    cases hc : isBlank c with
    | true => rw [List.cons_append, splitWords_blank hc, splitWords_blank hc, ih]
    | false =>
      cases cs with
      | nil =>
        have hw : IsWord [c] := ⟨List.cons_ne_nil c [], by simpa using hc⟩
        have hb : ∀ b ∈ bs.head?, isBlank b = true := fun b hb =>
          List.all_eq_true.mp h b (List.mem_of_head? hb)
        have hend : ∀ b ∈ ([] : List Char).head?, isBlank b = true := nofun
        have hshort := splitWords_word hw hend
        rw [List.append_nil] at hshort
        rw [splitWords_word hw hb, hnil, hshort, splitWords_nil]
      | cons d ds =>
        rw [List.cons_append] at ih
        rw [List.cons_append, List.cons_append, splitWords.eq_def, splitWords.eq_def (c :: d :: ds)]
        simp only [hc, Bool.false_eq_true, if_false, ih]

/-- Texts are split on their own where the first one ends in a blank. -/
theorem splitWords_append {cs : List Char} (h : ∀ b ∈ cs.getLast?, isBlank b = true)
    (rest : List Char) : splitWords (cs ++ rest) = splitWords cs ++ splitWords rest := by
  induction cs with
  | nil => rfl
  | cons c cs ih =>
    cases hc : isBlank c with
    | true =>
      have hlast : ∀ b ∈ cs.getLast?, isBlank b = true := by
        intro b hb
        exact h b (by simp [List.getLast?_cons, Option.mem_def.mp hb])
      rw [List.cons_append, splitWords_blank hc, splitWords_blank hc, ih hlast]
    | false =>
      cases cs with
      | nil => simp [hc] at h
      | cons d cs =>
        have hrest := ih fun b hb => h b (by rwa [List.getLast?_cons_cons])
        rw [List.cons_append] at hrest
        rw [List.cons_append, List.cons_append, splitWords.eq_def, splitWords.eq_def (c :: d :: cs)]
        simp only [hc, Bool.false_eq_true, if_false, hrest]
        cases hd : isBlank d with
        | true => rfl
        | false =>
          rw [splitWords_cons hd]
          rfl

/-- A text around its last word. -/
structure CutAtLast (cs before word blanks : List Char) : Prop where
  joined : cs = before ++ word ++ blanks
  isWord : IsWord word
  parted : ∀ b ∈ before.getLast?, isBlank b = true
  blank : blanks.all isBlank = true

theorem exists_cutAtLast {cs : List Char} (h : splitWords cs ≠ []) :
    ∃ before word blanks, CutAtLast cs before word blanks := by
  induction cs with
  | nil => exact absurd rfl h
  | cons c cs ih =>
    by_cases hcs : splitWords cs = []
    · cases hc : isBlank c with
      | true => exact absurd ((splitWords_blank hc).trans hcs) h
      | false =>
        have hword : IsWord [c] := ⟨List.cons_ne_nil c [], by simpa using hc⟩
        exact ⟨[], [c], cs, rfl, hword, nofun, splitWords_eq_nil_iff.mp hcs⟩
    · obtain ⟨before, word, blanks, rfl, hword, hparted, hblank⟩ := ih hcs
      cases before with
      | cons b before =>
        refine ⟨c :: b :: before, word, blanks, rfl, hword, ?_, hblank⟩
        rwa [List.getLast?_cons_cons]
      | nil =>
        cases hc : isBlank c with
        | true => exact ⟨[c], word, blanks, rfl, hword, by simpa using hc, hblank⟩
        | false =>
          refine ⟨[], c :: word, blanks, rfl, ⟨List.cons_ne_nil c word, ?_⟩, nofun, hblank⟩
          exact List.forall_mem_cons.mpr ⟨hc, hword.blank_free⟩

theorem CutAtLast.splitWords_eq {cs before word blanks : List Char}
    (h : CutAtLast cs before word blanks) : splitWords cs = splitWords before ++ [word] := by
  obtain ⟨rfl, hword, hparted, hblank⟩ := h
  have hhead : ∀ b ∈ blanks.head?, isBlank b = true := fun b hb =>
    List.all_eq_true.mp hblank b (List.mem_of_head? hb)
  rw [List.append_assoc, splitWords_append hparted, splitWords_word hword hhead,
    splitWords_eq_nil_iff.mpr hblank]

theorem splitWords_dropBlanks (cs : List Char) :
    splitWords (cs.dropWhile isBlank) = splitWords cs := by
  have h := splitWords_blanks (List.all_takeWhile (l := cs) (p := isBlank)) (cs.dropWhile isBlank)
  rwa [List.takeWhile_append_dropWhile, eq_comm] at h

theorem splitWords_trimEnd (cs : List Char) : splitWords (trimEnd cs) = splitWords cs := by
  have hends : trimEnd cs ++ (cs.reverse.takeWhile isBlank).reverse = cs := by
    rw [trimEnd, ← List.reverse_append, List.takeWhile_append_dropWhile, List.reverse_reverse]
  have hblank : (cs.reverse.takeWhile isBlank).reverse.all isBlank = true := by
    rw [List.all_reverse]
    exact List.all_takeWhile
  rw [← splitWords_append_blanks hblank (trimEnd cs), hends]

/-- Trimming a line keeps its words. -/
theorem words_trimmed (line : String) : words (trimmed line) = words line := by
  rw [words, trimmed, String.toList_ofList, trim, splitWords_trimEnd, splitWords_dropBlanks, words]

/-- A text without blanks is cut off as one word, or not at all if it is empty. -/
theorem splitWords_part {w rest : List Char} (hw : ∀ c ∈ w, isBlank c = false)
    (hr : ∀ b ∈ rest.head?, isBlank b = true) :
    splitWords (w ++ rest) = [w].filter (· ≠ []) ++ splitWords rest := by
  by_cases hne : w = []
  · simp [hne]
  · rw [splitWords_word ⟨hne, hw⟩ hr]
    simp [hne]

/-- Of texts without blanks that are joined by spaces, those that are not empty are read back. -/
theorem splitWords_intercalate {ws : List (List Char)}
    (h : ∀ w ∈ ws, ∀ c ∈ w, isBlank c = false) :
    splitWords ([' '].intercalate ws) = ws.filter (· ≠ []) := by
  induction ws with
  | nil => rfl
  | cons w ws ih =>
    have hrest := ih fun v hv => h v (List.mem_cons_of_mem w hv)
    have hw : ∀ c ∈ w, isBlank c = false := h w List.mem_cons_self
    have hfilter : (w :: ws).filter (· ≠ []) = [w].filter (· ≠ []) ++ ws.filter (· ≠ []) :=
      List.filter_append [w] ws
    rw [hfilter]
    cases ws with
    | nil =>
      have hend : splitWords (w ++ []) = _ := splitWords_part hw nofun
      rw [List.append_nil] at hend
      rw [List.intercalate_singleton, hend, splitWords_nil, List.filter_nil]
    | cons v vs =>
      have hspace : ∀ b ∈ ([' '] ++ [' '].intercalate (v :: vs)).head?, isBlank b = true := by
        intro b hb
        obtain rfl := Option.some.inj hb
        decide
      rw [List.intercalate_cons_cons, List.append_assoc, splitWords_part hw hspace,
        List.singleton_append, splitWords_blank (by decide), hrest]

theorem words_unwords_filter {ws : List String}
    (h : ∀ w ∈ ws, ∀ c ∈ w.toList, isBlank c = false) :
    words (unwords ws) = ws.filter (· ≠ "") := by
  have hfree : ∀ w ∈ ws.map String.toList, ∀ c ∈ w, isBlank c = false := by
    intro w hw
    obtain ⟨s, hs, rfl⟩ := List.mem_map.mp hw
    exact h s hs
  rw [words, unwords, String.toList_intercalate]
  change (splitWords ([' '].intercalate _)).map String.ofList = _
  rw [splitWords_intercalate hfree, List.filter_map, List.map_map]
  have hempty : (fun w => decide (w ≠ [])) ∘ String.toList = fun w => decide (w ≠ "") := by
    funext w
    simp [String.toList_eq_nil_iff]
  rw [hempty]
  exact List.map_id'' (fun s => String.ofList_toList) _

theorem filter_words {ws : List String} (h : ∀ w ∈ ws, IsWord w.toList) :
    ws.filter (· ≠ "") = ws := by
  refine List.filter_eq_self.mpr fun w hw => decide_eq_true fun hempty => ?_
  exact (h w hw).nonempty (by simp [hempty])

/-- Words that are joined by spaces are read back. -/
theorem words_unwords {ws : List String} (h : ∀ w ∈ ws, IsWord w.toList) :
    words (unwords ws) = ws := by
  rw [words_unwords_filter fun w hw => (h w hw).blank_free, filter_words h]

/-- Joined by spaces, words are read back, and a text without blanks among them is too if it is not
empty. -/
theorem words_unwords_among {ws more : List String} {word : String}
    (hws : ∀ w ∈ ws, IsWord w.toList) (hword : ∀ c ∈ word.toList, isBlank c = false)
    (hmore : ∀ w ∈ more, IsWord w.toList) :
    words (unwords (ws ++ word :: more)) = ws ++ [word].filter (· ≠ "") ++ more := by
  have hblank : ∀ w ∈ ws ++ word :: more, ∀ c ∈ w.toList, isBlank c = false := by
    intro w hw
    rcases List.mem_append.mp hw with hw | hw
    · exact (hws w hw).blank_free
    · rcases List.mem_cons.mp hw with rfl | hw
      · exact hword
      · exact (hmore w hw).blank_free
  rw [words_unwords_filter hblank, ← List.singleton_append, List.filter_append,
    List.filter_append, filter_words hws, filter_words hmore, List.append_assoc]

/-- Words with blanks around them: a gap in front of each, and a trail after the last one. -/
def spaced (gap : Nat → String) (trail : String) : List String → String
  | [] => trail
  | w :: ws => gap 0 ++ w ++ spaced (fun i => gap (i + 1)) trail ws

/-- Gaps and a trail of blanks. A gap between two words is not empty. -/
structure Gaps (gap : Nat → String) (trail : String) : Prop where
  blank : ∀ i, (gap i).toList.all isBlank = true
  parted : ∀ i, gap (i + 1) ≠ ""
  trail_blank : trail.toList.all isBlank = true

theorem Gaps.tail {gap : Nat → String} {trail : String} (h : Gaps gap trail) :
    Gaps (fun i => gap (i + 1)) trail where
  blank i := h.blank (i + 1)
  parted i := h.parted (i + 1)
  trail_blank := h.trail_blank

/-- A blank comes after a word. -/
theorem Gaps.isBlank_head? {gap : Nat → String} {trail : String} (h : Gaps gap trail)
    (ws : List String) {b : Char}
    (hb : b ∈ (spaced (fun i => gap (i + 1)) trail ws).toList.head?) : isBlank b = true := by
  cases ws with
  | nil => exact List.all_eq_true.mp h.trail_blank b (List.mem_of_head? hb)
  | cons w ws =>
    have hgap : (gap 1).toList ≠ [] := by simpa using h.parted 0
    obtain ⟨c, cs, hcs⟩ := List.exists_cons_of_ne_nil hgap
    have hall := h.blank 1
    rw [hcs, List.all_cons, Bool.and_eq_true] at hall
    rw [spaced, String.toList_append, String.toList_append, hcs] at hb
    obtain rfl := Option.some.inj hb
    exact hall.1

/-- Words with blanks of any kind around them are read back. -/
theorem words_spaced {gap : Nat → String} {trail : String} (h : Gaps gap trail)
    {ws : List String} (hws : ∀ w ∈ ws, IsWord w.toList) : words (spaced gap trail ws) = ws := by
  induction ws generalizing gap with
  | nil => exact congrArg (List.map _) (splitWords_eq_nil_iff.mpr h.trail_blank)
  | cons w ws ih =>
    obtain ⟨hw, hws⟩ := List.forall_mem_cons.mp hws
    have hrest : words (spaced (fun i => gap (i + 1)) trail ws) = ws := ih h.tail hws
    rw [words, spaced, String.toList_append, String.toList_append, List.append_assoc,
      splitWords_blanks (h.blank 0), splitWords_word hw fun _ => h.isBlank_head? ws,
      List.map_cons, String.ofList_toList]
    exact congrArg (w :: ·) hrest

/-- A space after each word is the same as a space before what follows. -/
theorem join_spaced (ws : List String) (word : String) :
    String.join (ws.map (· ++ " ")) ++ word = unwords (ws ++ [word]) := by
  induction ws with
  | nil => simp [unwords]
  | cons w ws ih =>
    have hcons : unwords (w :: (ws ++ [word])) = w ++ " " ++ unwords (ws ++ [word]) :=
      String.intercalate_cons_of_ne_nil (by simp)
    rw [List.cons_append, hcons, ← ih]
    simp [String.append_assoc]

/-- Spaces in front of a line are not seen. -/
theorem words_indented (line : String) : words ("    " ++ line) = words line := by
  rw [words, String.toList_append]
  change (splitWords ([' ', ' ', ' ', ' '] ++ line.toList)).map String.ofList = words line
  rw [splitWords_blanks (by decide), words]

theorem unwords_append {ws : List String} (h : ws ≠ []) (w : String) :
    unwords ws ++ (" " ++ w) = unwords (ws ++ [w]) := by
  rw [unwords, unwords, String.intercalate_append_of_ne_nil h (List.cons_ne_nil w []),
    String.intercalate_singleton, String.append_assoc]

theorem IsWord.not_isLineBreak {w : List Char} (h : IsWord w) {c : Char} (hc : c ∈ w) :
    isLineBreak c = false := by
  have hblank := h.blank_free c hc
  cases hbreak : isLineBreak c with
  | false => rfl
  | true =>
    rw [isBlank_of_isLineBreak hbreak] at hblank
    cases hblank

theorem not_isLineBreak_of_mem_intercalate {ws : List (List Char)} (h : ∀ w ∈ ws, IsWord w)
    {c : Char} (hc : c ∈ [' '].intercalate ws) : isLineBreak c = false := by
  induction ws with
  | nil => exact absurd hc List.not_mem_nil
  | cons w ws ih =>
    have hw : IsWord w := h w List.mem_cons_self
    cases ws with
    | nil =>
      rw [List.intercalate_singleton] at hc
      exact hw.not_isLineBreak hc
    | cons v vs =>
      rw [List.intercalate_cons_cons, List.append_assoc] at hc
      rcases List.mem_append.mp hc with hc | hc
      · exact hw.not_isLineBreak hc
      · rcases List.mem_append.mp hc with hc | hc
        · rw [List.mem_singleton.mp hc]
          decide
        · exact ih (fun u hu => h u (List.mem_cons_of_mem w hu)) hc

theorem not_isLineBreak_of_mem_unwords {ws : List String} (h : ∀ w ∈ ws, IsWord w.toList) :
    ∀ c ∈ (unwords ws).toList, isLineBreak c = false := by
  intro c hc
  rw [unwords, String.toList_intercalate] at hc
  apply not_isLineBreak_of_mem_intercalate ?_ hc
  intro w hw
  obtain ⟨s, hs, rfl⟩ := List.mem_map.mp hw
  exact h s hs

theorem splitLines_char {c : Char} (hc : isLineBreak c = false) (cs : List Char) :
    splitLines (c :: cs) = (c :: (splitLines cs).headD []) :: (splitLines cs).tail := by
  have hr : c ≠ '\r' := by
    rintro rfl
    exact absurd hc (by decide)
  rw [splitLines.eq_3 _ _ fun _ hcr => absurd hcr hr, if_neg (by simp [hc])]
  cases splitLines cs <;> rfl

theorem splitLines_line {l : List Char} (h : ∀ c ∈ l, isLineBreak c = false) (rest : List Char) :
    splitLines (l ++ '\n' :: rest) = l :: splitLines rest := by
  induction l with
  | nil =>
    rw [List.nil_append, splitLines.eq_3 _ _ (by simp)]
    rfl
  | cons c l ih =>
    rw [List.cons_append, splitLines_char (h c List.mem_cons_self),
      ih fun d hd => h d (List.mem_cons_of_mem c hd)]
    rfl

/-- Lines that are ended by line feeds are read back. -/
theorem splitLines_unlines {ls : List String}
    (h : ∀ l ∈ ls, ∀ c ∈ l.toList, isLineBreak c = false) :
    splitLines (unlines ls).toList = ls.map String.toList := by
  rw [unlines, String.toList_join]
  induction ls with
  | nil => rfl
  | cons l ls ih =>
    have hl := splitLines_line (h l List.mem_cons_self)
    have hfeed : "\n".toList = ['\n'] := rfl
    rw [List.map_cons, List.flatMap_cons, String.toList_append, List.append_assoc, hfeed,
      List.singleton_append, hl, ih fun k hk => h k (List.mem_cons_of_mem l hk), List.map_cons]

theorem splitLines_break {c : Char} {cs : List Char} (hc : isLineBreak c = true)
    (hcs : c = '\r' → cs.head? ≠ some '\n') : splitLines (c :: cs) = [] :: splitLines cs := by
  have hpair : ∀ ds, c = '\r' → cs = '\n' :: ds → False := by
    rintro ds hr rfl
    exact hcs hr rfl
  rw [splitLines.eq_3 _ _ hpair, if_pos hc]

theorem splitLines_ne_nil {cs : List Char} (h : cs ≠ []) : splitLines cs ≠ [] := by
  cases cs using splitLines.fun_cases with
  | case1 => exact absurd rfl h
  | case2 cs =>
    rw [splitLines.eq_2]
    exact List.cons_ne_nil _ _
  | case3 c cs hcs hc =>
    rw [splitLines.eq_3 _ _ hcs, if_pos hc]
    exact List.cons_ne_nil _ _
  | case4 c cs hcs hc | case5 c cs hcs hc =>
    rw [splitLines_char (by simpa using hc)]
    exact List.cons_ne_nil _ _

theorem splitLines_char_append {c : Char} (hc : isLineBreak c = false) {cs rest : List Char}
    (h : splitLines (cs ++ '\n' :: rest) = splitLines (cs ++ ['\n']) ++ splitLines rest) :
    splitLines (c :: cs ++ '\n' :: rest) =
      splitLines (c :: cs ++ ['\n']) ++ splitLines rest := by
  have hfeed : cs ++ ['\n'] ≠ [] := List.append_ne_nil_of_right_ne_nil cs (List.cons_ne_nil _ _)
  obtain ⟨l, ls, hl⟩ := List.exists_cons_of_ne_nil (splitLines_ne_nil hfeed)
  rw [List.cons_append, List.cons_append, splitLines_char hc, splitLines_char hc, h, hl]
  rfl

/-- A text that ends in a line feed is cut into lines whatever comes after it. -/
theorem splitLines_append (cs rest : List Char) :
    splitLines (cs ++ '\n' :: rest) = splitLines (cs ++ ['\n']) ++ splitLines rest := by
  induction cs using splitLines.induct with
  | case1 =>
    have hfeed : ∀ ds, splitLines ('\n' :: ds) = [] :: splitLines ds := fun ds =>
      splitLines_break (by decide) fun h => absurd h (by decide)
    rw [List.nil_append, List.nil_append, hfeed, hfeed]
    rfl
  | case2 cs ih => simp only [List.cons_append, splitLines.eq_2, ih]
  | case3 c cs hcs hc ih =>
    cases cs with
    | nil =>
      by_cases hr : c = '\r'
      · -- The line feed belongs to the carriage return before it.
        subst hr
        rfl
      · have hbreak : ∀ ds, splitLines (c :: '\n' :: ds) = [] :: splitLines ('\n' :: ds) :=
          fun ds => splitLines_break hc fun h => absurd h hr
        exact (hbreak rest).trans
          ((congrArg ([] :: ·) ih).trans (congrArg (· ++ splitLines rest) (hbreak []).symm))
    | cons d cs =>
      have hpair : ∀ ds, c = '\r' → (d :: cs ++ '\n' :: ds).head? ≠ some '\n' := by
        intro ds hr hd
        exact hcs cs hr (by rw [Option.some.inj hd])
      have hbreak : ∀ ds, splitLines (c :: d :: cs ++ '\n' :: ds) =
          [] :: splitLines (d :: cs ++ '\n' :: ds) := fun ds => splitLines_break hc (hpair ds)
      rw [hbreak rest, hbreak [], ih]
      rfl
  | case4 c cs hcs hc hs ih | case5 c cs hcs hc l ls hs ih =>
    exact splitLines_char_append (by simpa using hc) ih

theorem splitLines_unbroken {l : List Char} (hne : l ≠ [])
    (h : ∀ c ∈ l, isLineBreak c = false) : splitLines l = [l] := by
  induction l with
  | nil => exact absurd rfl hne
  | cons c l ih =>
    rw [splitLines_char (h c List.mem_cons_self)]
    cases l with
    | nil => rfl
    | cons d l =>
      rw [ih (List.cons_ne_nil d l) fun e he => h e (List.mem_cons_of_mem c he)]
      rfl

/-- Lines that are not empty are read back as well without a line feed after the last one. -/
theorem splitLines_intercalate {ls : List (List Char)} (hne : ∀ l ∈ ls, l ≠ [])
    (h : ∀ l ∈ ls, ∀ c ∈ l, isLineBreak c = false) :
    splitLines (['\n'].intercalate ls) = ls := by
  induction ls with
  | nil => rfl
  | cons l ls ih =>
    have hl : ∀ c ∈ l, isLineBreak c = false := h l List.mem_cons_self
    cases ls with
    | nil =>
      rw [List.intercalate_singleton, splitLines_unbroken (hne l List.mem_cons_self) hl]
    | cons k ks =>
      rw [List.intercalate_cons_cons, List.append_assoc, List.singleton_append,
        splitLines_line hl, ih (fun m hm => hne m (List.mem_cons_of_mem l hm))
          fun m hm => h m (List.mem_cons_of_mem l hm)]

theorem splitAt_part {sep : Char} {p : List Char} (h : sep ∉ p) (rest : List Char) :
    splitAt sep (p ++ sep :: rest) = p :: splitAt sep rest := by
  induction p with
  | nil => rw [List.nil_append, splitAt, if_pos rfl]
  | cons c p ih =>
    obtain ⟨hc, hp⟩ := not_or.mp (mt List.mem_cons.mpr h)
    rw [List.cons_append, splitAt, if_neg (Ne.symm hc), ih hp]

theorem splitAt_of_not_mem {sep : Char} {p : List Char} (h : sep ∉ p) : splitAt sep p = [p] := by
  induction p with
  | nil => rfl
  | cons c p ih =>
    obtain ⟨hc, hp⟩ := not_or.mp (mt List.mem_cons.mpr h)
    rw [splitAt, if_neg (Ne.symm hc), ih hp]

/-- Parts with a separator between them are read back. -/
theorem splitAt_intercalate {sep : Char} {ps : List (List Char)} (hne : ps ≠ [])
    (h : ∀ p ∈ ps, sep ∉ p) : splitAt sep ([sep].intercalate ps) = ps := by
  induction ps with
  | nil => exact absurd rfl hne
  | cons p ps ih =>
    have hp : sep ∉ p := h p List.mem_cons_self
    cases ps with
    | nil => rw [List.intercalate_singleton, splitAt_of_not_mem hp]
    | cons q qs =>
      rw [List.intercalate_cons_cons, List.append_assoc, List.singleton_append, splitAt_part hp,
        ih (List.cons_ne_nil q qs) fun r hr => h r (List.mem_cons_of_mem p hr)]

end RouterConsole.Text
