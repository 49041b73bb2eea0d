import RouterConsole.Config.Token
import RouterConsole.Proofs.Text.ReadBack

/-!
# The words of tokens

Tokens are the words of their line with places attached, and a line that says something has at
least one. A text that was made of lines is tokenized line by line.
-/
namespace RouterConsole.Config

open Text (IsWord isBlank splitWords trim)

/-- The words that tokens stand for. -/
def values (ts : List Token) : List String := ts.map (·.value)

@[simp] theorem values_nil : values [] = [] := rfl

@[simp] theorem values_cons (t : Token) (ts : List Token) :
    values (t :: ts) = t.value :: values ts := rfl

@[simp] theorem values_append (ts us : List Token) : values (ts ++ us) = values ts ++ values us :=
  List.map_append

@[simp] theorem scanLine_nil (line column : Nat) : scanLine line column [] = [] := by
  rw [scanLine.eq_def]

/-- A blank only moves the column. -/
theorem scanLine_blank {c : Char} (hc : isBlank c = true) (line column : Nat) (cs : List Char) :
    scanLine line column (c :: cs) = scanLine line (column + 1) cs := by
  rw [scanLine.eq_def]
  exact if_pos hc

/-- Any other character starts a token, which goes up to the next blank. -/
theorem scanLine_word {c : Char} (hc : isBlank c = false) (line column : Nat) (cs : List Char) :
    scanLine line column (c :: cs) =
      ⟨String.ofList (c :: cs.takeWhile (!isBlank ·)), line, column⟩ ::
        scanLine line (column + (c :: cs.takeWhile (!isBlank ·)).length)
          (cs.dropWhile (!isBlank ·)) := by
  rw [scanLine.eq_def]
  exact if_neg (Bool.eq_false_iff.mp hc)

theorem values_scanLine (line column : Nat) (cs : List Char) :
    values (scanLine line column cs) = (splitWords cs).map String.ofList := by
  -- The scanner takes a whole word at once, where `splitWords` goes by single characters.
  induction column, cs using scanLine.induct with
  | case1 column => rw [scanLine_nil, Text.splitWords_nil, values_nil, List.map_nil]
  | case2 column c cs hc ih => rw [scanLine_blank hc, ih, Text.splitWords_blank hc]
  | case3 column c cs hc word ih =>
    have hb : isBlank c = false := Bool.eq_false_iff.mpr hc
    rw [scanLine_word hb, Text.splitWords_cons hb, List.map_cons, ← ih, values_cons]

theorem isWord_of_mem_scanLine {line column : Nat} {cs : List Char} {t : Token}
    (h : t ∈ scanLine line column cs) : IsWord t.value.toList := by
  have hv : t.value ∈ values (scanLine line column cs) := List.mem_map_of_mem h
  rw [values_scanLine] at hv
  obtain ⟨w, hw, hwt⟩ := List.mem_map.mp hv
  obtain ⟨hne, hblank⟩ := Text.of_mem_splitWords hw
  rw [← hwt, String.toList_ofList]
  exact ⟨hne, hblank⟩

theorem head?_trim (cs : List Char) : (trim cs).head? = (cs.dropWhile isBlank).head? := by
  unfold trim Text.trimEnd
  have hfirst := List.head?_dropWhile_not isBlank cs
  cases hd : cs.dropWhile isBlank with
  | nil => rfl
  | cons c rest =>
    rw [hd] at hfirst
    have hc : ¬isBlank c = true := by simpa using hfirst
    rw [List.reverse_cons, List.dropWhile_append]
    split
    · rw [List.dropWhile_cons_of_neg hc]
      rfl
    · rw [List.reverse_append]
      rfl

/-- A trimmed line starts as the first word does. -/
theorem head?_splitWords (cs : List Char) :
    (splitWords cs).head?.bind List.head? = (trim cs).head? := by
  have hfirst := List.head?_dropWhile_not isBlank cs
  rw [head?_trim, ← Text.splitWords_dropBlanks]
  cases hd : cs.dropWhile isBlank with
  | nil => rfl
  | cons c rest =>
    rw [hd] at hfirst
    have hc : isBlank c = false := by simpa using hfirst
    rw [Text.splitWords_cons hc]
    rfl

/-- A line says something if it has a first word that opens no comment. -/
theorem isSignificant_iff {cs : List Char} :
    isSignificant cs = true ↔ ∃ w ws, splitWords cs = w :: ws ∧ w.head? ≠ some '#' := by
  have hhead := head?_splitWords cs
  unfold isSignificant
  cases hs : splitWords cs with
  | nil =>
    rw [hs, eq_comm, List.head?_nil, Option.bind_none, List.head?_eq_none_iff] at hhead
    simp [hhead]
  | cons w ws =>
    have hw : w ≠ [] := (Text.of_mem_splitWords (hs ▸ List.mem_cons_self)).1
    obtain ⟨c, w', rfl⟩ := List.exists_cons_of_ne_nil hw
    cases ht : trim cs with
    | nil =>
      rw [hs, ht] at hhead
      cases hhead
    | cons d _ =>
      rw [hs, ht] at hhead
      obtain rfl := Option.some.inj hhead
      constructor
      · intro h
        exact ⟨_, _, rfl, by simpa using h⟩
      · rintro ⟨v, vs, h, hv⟩
        obtain ⟨rfl, -⟩ := List.cons.inj h
        simpa using hv

theorem scanLine_ne_nil {cs : List Char} (h : isSignificant cs = true) (line column : Nat) :
    scanLine line column cs ≠ [] := by
  obtain ⟨w, ws, hw, -⟩ := isSignificant_iff.mp h
  intro hn
  have hv := values_scanLine line column cs
  rw [hn, hw] at hv
  cases hv

/-- What is kept of lines is each line that says something, with its words and their places. -/
theorem mem_scanLines_iff {line : Nat} {ls : List (List Char)} {l : List Token} :
    l ∈ scanLines line ls ↔
      ∃ i cs, ls[i]? = some cs ∧ isSignificant cs = true ∧ l = scanLine (line + i) 1 cs := by
  induction ls generalizing line with
  | nil => simp [scanLines]
  | cons k ls ih =>
    -- The first line is at index zero, and those behind it are counted from one line further on.
    have hsplit : (∃ i cs, (k :: ls)[i]? = some cs ∧ isSignificant cs = true ∧
        l = scanLine (line + i) 1 cs) ↔
        (isSignificant k = true ∧ l = scanLine line 1 k) ∨ l ∈ scanLines (line + 1) ls := by
      rw [ih]
      constructor
      · rintro ⟨i, cs, hcs, hsignificant, hl⟩
        cases i with
        | zero =>
          obtain rfl := Option.some.inj hcs
          exact .inl ⟨hsignificant, hl⟩
        | succ i => exact .inr ⟨i, cs, hcs, hsignificant, by rwa [Nat.add_right_comm]⟩
      · rintro (⟨hsignificant, hl⟩ | ⟨i, cs, hcs, hsignificant, hl⟩)
        · exact ⟨0, k, rfl, hsignificant, hl⟩
        · exact ⟨i + 1, cs, hcs, hsignificant, by rwa [Nat.add_right_comm] at hl⟩
    rw [hsplit, scanLines]
    split
    · rename_i hk
      simp [hk]
    · rename_i hk
      simp [hk]

/-- No line is kept without a token on it. -/
theorem nil_not_mem_tokenize (text : String) : [] ∉ tokenize text := by
  intro h
  obtain ⟨i, cs, -, hsignificant, hnil⟩ := mem_scanLines_iff.mp h
  exact scanLine_ne_nil hsignificant _ _ hnil.symm

/-- A line that says something has tokens. -/
theorem tokenize_ne_nil {text : String}
    (h : ∃ l ∈ Text.lines text, isSignificant l.toList = true) : tokenize text ≠ [] := by
  obtain ⟨_, hl, hsignificant⟩ := h
  obtain ⟨cs, hcs, rfl⟩ := List.mem_map.mp hl
  rw [String.toList_ofList] at hsignificant
  obtain ⟨i, hi⟩ := List.mem_iff_getElem?.mp hcs
  exact List.ne_nil_of_mem (mem_scanLines_iff.mpr ⟨i, cs, hi, hsignificant, rfl⟩)

/-- Every token of a text stands for a word. -/
theorem isWord_of_mem_tokenize {text : String} {l : List Token} (hl : l ∈ tokenize text) {t : Token}
    (ht : t ∈ l) : IsWord t.value.toList := by
  obtain ⟨i, cs, -, -, rfl⟩ := mem_scanLines_iff.mp hl
  exact isWord_of_mem_scanLine ht

/-- A line that is read back as it was written. -/
structure Readable (line : String) : Prop where
  unbroken : ∀ c ∈ line.toList, Text.isLineBreak c = false
  significant : isSignificant line.toList = true

theorem values_scanLines {ls : List String} (h : ∀ l ∈ ls, Readable l) (line : Nat) :
    (scanLines line (ls.map String.toList)).map values = ls.map Text.words := by
  induction ls generalizing line with
  | nil => rfl
  | cons l ls ih =>
    have hl := (h l List.mem_cons_self).significant
    have hrest := ih (fun k hk => h k (List.mem_cons_of_mem l hk)) (line + 1)
    rw [List.map_cons, scanLines, if_pos hl, List.map_cons, values_scanLine, hrest]
    rfl

/-- The tokens of a text are the words of its lines. -/
theorem values_tokenize {ls : List String} (h : ∀ l ∈ ls, Readable l) :
    (tokenize (Text.unlines ls)).map values = ls.map Text.words := by
  rw [tokenize, Text.splitLines_unlines fun l hl => (h l hl).unbroken]
  exact values_scanLines h 1

/-- The line feed after the last line may be missing. -/
theorem values_tokenize_intercalate {ls : List String} (h : ∀ l ∈ ls, Readable l) :
    (tokenize (String.intercalate "\n" ls)).map values = ls.map Text.words := by
  have hlines : Text.splitLines (String.intercalate "\n" ls).toList = ls.map String.toList := by
    rw [String.toList_intercalate]
    refine Text.splitLines_intercalate ?_ ?_
    · rintro _ hmem rfl
      obtain ⟨l, hl, hnil⟩ := List.mem_map.mp hmem
      have hsignificant := (h l hl).significant
      rw [hnil] at hsignificant
      exact absurd hsignificant (by decide)
    · intro _ hmem
      obtain ⟨l, hl, rfl⟩ := List.mem_map.mp hmem
      exact (h l hl).unbroken
  rw [tokenize, hlines]
  exact values_scanLines h 1

/-- Words joined by spaces are a readable line, if the first opens no comment. -/
theorem readable_unwords {w : String} {ws : List String} (h : ∀ v ∈ w :: ws, IsWord v.toList)
    (hw : w.toList.head? ≠ some '#') : Readable (Text.unwords (w :: ws)) where
  unbroken := Text.not_isLineBreak_of_mem_unwords h
  significant := by
    have hread := congrArg (·.map String.toList) (Text.words_unwords h)
    rw [Text.words] at hread
    simp only [List.map_map, Function.comp_def, String.toList_ofList, List.map_id',
      List.map_cons] at hread
    exact isSignificant_iff.mpr ⟨w.toList, _, hread, hw⟩

theorem readable_indented {line : String} (h : Readable line) : Readable ("    " ++ line) where
  unbroken c hc := by
    rw [String.toList_append] at hc
    rcases List.mem_append.mp hc with hc | hc
    · have hspaces : "    ".toList.all (!Text.isLineBreak ·) = true := by decide
      simpa using List.all_eq_true.mp hspaces c hc
    · exact h.unbroken c hc
  significant := by
    rw [isSignificant_iff, String.toList_append, Text.splitWords_blanks (by decide)]
    exact isSignificant_iff.mp h.significant

end RouterConsole.Config
