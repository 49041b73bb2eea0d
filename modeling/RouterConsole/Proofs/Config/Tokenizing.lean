import Mathlib.Data.List.Forall2
import Mathlib.Data.List.TakeWhile
import Mathlib.Logic.ExistsUnique
import RouterConsole.Proofs.Config.Positions
import RouterConsole.Proofs.Text.LineCut

/-!
# Nothing is lost and nothing is made up

The tokens of a text are its words: line by line, in order, at their columns, and no character that
is not blank stands outside of one. Only lines that are blank or open a comment are left out. Hence
what the tokens say is all that counts of a text: written down again, with a space between words and
a line for each group, it is tokenized into the same words.
-/
namespace RouterConsole.Config

open Text (IsWord isBlank splitWords)

/-- The first character of the line that is not blank, if there is one, opens no comment. -/
def saysSomething (line : List Char) : Bool := (line.find? (!isBlank ·)).any (· != '#')

/-- The column is one of those at which the token stands. -/
def Token.Covers (t : Token) (column : Nat) : Prop :=
  t.column ≤ column ∧ column < t.column + t.value.length

/-- The tokens are the words of the line with the given number. -/
structure TokensOf (number : Nat) (l : List Char) (ts : List Token) : Prop where
  nonempty : ts ≠ []
  numbered : ∀ t ∈ ts, t.line = number
  values_eq : values ts = (splitWords l).map String.ofList
  isWord : ∀ t ∈ ts, IsWord t.value.toList
  increasing : ts.Pairwise (·.column < ·.column)
  /-- The characters of a token are those of the line at its columns. -/
  own : ∀ t ∈ ts, 1 ≤ t.column ∧
    (l.drop (t.column - 1)).take t.value.length = t.value.toList
  covered : ∀ k c, l[k]? = some c → isBlank c = false → ∃! t, t ∈ ts ∧ t.Covers (k + 1)

theorem isSignificant_eq_saysSomething (line : List Char) :
    isSignificant line = saysSomething line := by
  have hhead := head?_trim line
  rw [← List.find?_not_eq_head?_dropWhile] at hhead
  rw [saysSomething, ← hhead, isSignificant]
  cases Text.trim line <;> rfl

/-! ## The tokens of one line -/

section Line

variable {line column : Nat} {cs : List Char}

theorem length_pos_of_mem_scanLine {t : Token} (h : t ∈ scanLine line column cs) :
    0 < t.value.length := by
  have hword := isWord_of_mem_scanLine h
  rw [← String.length_toList]
  exact List.length_pos_iff.mpr hword.nonempty

/-- Each token ends before the next one starts. -/
theorem pairwise_scanLine (line column : Nat) (cs : List Char) :
    (scanLine line column cs).Pairwise fun t u => t.column + t.value.length ≤ u.column := by
  induction column, cs using scanLine.induct with
  | case1 column => exact scanLine_nil line column ▸ .nil
  | case2 column c cs hc ih => rwa [scanLine_blank hc]
  | case3 column c cs hc word ih =>
    rw [scanLine_word (Bool.eq_false_iff.mpr hc)]
    refine .cons (fun u hu => ?_) ih
    obtain ⟨-, before, after, hcolumn, -⟩ := place_of_mem_scanLine hu
    rw [String.length_ofList, hcolumn]
    exact Nat.le_add_right _ _

/-- A character that is not blank stands at a column of a token. -/
theorem exists_covers (line column : Nat) (cs : List Char) : ∀ k c, cs[k]? = some c →
    isBlank c = false → ∃ t ∈ scanLine line column cs, t.Covers (column + k) := by
  induction column, cs using scanLine.induct with
  | case1 column =>
    intro k c h
    rw [List.getElem?_nil] at h
    cases h
  | case2 column b cs hb ih =>
    intro k c h hc
    rw [scanLine_blank hb]
    cases k with
    | zero =>
      obtain rfl := Option.some.inj h
      rw [hb] at hc
      cases hc
    | succ k =>
      obtain ⟨t, ht, hcovers⟩ := ih k c h hc
      exact ⟨t, ht, by rwa [Nat.add_assoc, Nat.add_comm 1] at hcovers⟩
  | case3 column b cs hb word ih =>
    intro k c h hc
    have hword : b :: cs = word ++ cs.dropWhile (!isBlank ·) :=
      congrArg (b :: ·) List.takeWhile_append_dropWhile.symm
    rw [scanLine_word (Bool.eq_false_iff.mpr hb)]
    by_cases hk : k < word.length
    · refine ⟨_, List.mem_cons_self, Nat.le_add_right column k, ?_⟩
      rw [String.length_ofList]
      exact Nat.add_lt_add_left hk column
    · have hle := Nat.le_of_not_lt hk
      rw [hword, List.getElem?_append_right hle] at h
      obtain ⟨t, ht, hcovers⟩ := ih _ c h hc
      rw [Nat.add_assoc, Nat.add_sub_cancel' hle] at hcovers
      exact ⟨t, List.mem_cons_of_mem _ ht, hcovers⟩

/-- No column belongs to two tokens. -/
theorem Token.Covers.unique {t u : Token} {k : Nat} (ht : t ∈ scanLine line column cs)
    (hu : u ∈ scanLine line column cs) (hkt : t.Covers k) (hku : u.Covers k) : t = u := by
  have hapart := List.pairwise_iff_getElem.mp (pairwise_scanLine line column cs)
  obtain ⟨i, hi, rfl⟩ := List.getElem_of_mem ht
  obtain ⟨j, hj, rfl⟩ := List.getElem_of_mem hu
  obtain ⟨hfrom, hto⟩ := hkt
  obtain ⟨hfrom', hto'⟩ := hku
  rcases Nat.lt_trichotomy i j with hlt | heq | hlt
  · have hle := hapart i j hi hj hlt
    omega
  · subst heq
    rfl
  · have hle := hapart j i hj hi hlt
    omega

/-- The scanner finds the words of a line that has any, and where they stand. -/
theorem tokensOf_scanLine {l : List Char} (h : isSignificant l = true) (number : Nat) :
    TokensOf number l (scanLine number 1 l) where
  nonempty := scanLine_ne_nil h number 1
  numbered t ht := (place_of_mem_scanLine ht).1
  values_eq := values_scanLine number 1 l
  isWord t ht := isWord_of_mem_scanLine ht
  increasing := by
    refine (pairwise_scanLine number 1 l).imp_of_mem fun {t u} ht _ hle => ?_
    have hpos := length_pos_of_mem_scanLine ht
    omega
  own t ht := by
    obtain ⟨-, before, after, hcolumn, hplace⟩ := place_of_mem_scanLine ht
    have hbefore : t.column - 1 = before.length := by omega
    refine ⟨by omega, ?_⟩
    rw [hbefore, hplace, List.append_assoc, List.drop_left, ← String.length_toList,
      List.take_left]
  covered k c hk hc := by
    obtain ⟨t, ht, hcovers⟩ := exists_covers number 1 l k c hk hc
    rw [Nat.add_comm] at hcovers
    exact ⟨t, ⟨ht, hcovers⟩, fun u hu => Token.Covers.unique hu.1 ht hu.2 hcovers⟩

end Line

/-! ## The lines of a text -/

/-- The groups of tokens stand for the lines that say something, in order. -/
theorem forall₂_scanLines (line : Nat) (ls : List (List Char)) :
    List.Forall₂ (fun l group => TokensOf l.2 l.1 group)
      ((ls.zipIdx line).filter fun l => saysSomething l.1) (scanLines line ls) := by
  induction ls generalizing line with
  | nil => exact .nil
  | cons l ls ih =>
    rw [List.zipIdx_cons, scanLines]
    split
    · rename_i hl
      rw [List.filter_cons_of_pos (by rwa [← isSignificant_eq_saysSomething])]
      exact .cons (tokensOf_scanLine hl line) (ih (line + 1))
    · rename_i hl
      rw [List.filter_cons_of_neg (by rwa [← isSignificant_eq_saysSomething])]
      exact ih (line + 1)

/-- The words of tokens, with a space between them and a line for each group. -/
def writtenOut (groups : List (List Token)) : String :=
  String.intercalate "\n" (groups.map fun group => Text.unwords (values group))

theorem values_tokenize_writtenOut (text : String) :
    (tokenize (writtenOut (tokenize text))).map values = (tokenize text).map values := by
  have hline : ∀ group ∈ tokenize text, Readable (Text.unwords (values group)) ∧
      Text.words (Text.unwords (values group)) = values group := by
    intro group hgroup
    obtain ⟨i, cs, -, hsignificant, rfl⟩ := mem_scanLines_iff.mp hgroup
    obtain ⟨w, ws, hws, hw⟩ := isSignificant_iff.mp hsignificant
    have hword : ∀ v ∈ values (scanLine (1 + i) 1 cs), IsWord v.toList := by
      intro v hv
      obtain ⟨t, ht, rfl⟩ := List.mem_map.mp hv
      exact isWord_of_mem_scanLine ht
    refine ⟨?_, Text.words_unwords hword⟩
    rw [values_scanLine, hws, List.map_cons] at hword ⊢
    exact readable_unwords hword (by rwa [String.toList_ofList])
  have hreadable : ∀ l ∈ (tokenize text).map fun group => Text.unwords (values group),
      Readable l := by
    intro l hl
    obtain ⟨group, hgroup, rfl⟩ := List.mem_map.mp hl
    exact (hline group hgroup).1
  rw [writtenOut, values_tokenize_intercalate hreadable, List.map_map]
  exact List.map_congr_left fun group hgroup => (hline group hgroup).2

/-- There is one way to cut a text into lines, and its groups of tokens are, in order, the words of
each line that says something, under its number. Written out again, they are tokenized into the same
words. -/
theorem tokens_are_the_words (text : String) :
    (∃ ls, (∀ ls', Text.CutIntoLines text.toList ls' ↔ ls' = ls) ∧
      List.Forall₂ (fun l group => TokensOf l.2 l.1 group)
        ((ls.zipIdx 1).filter fun l => saysSomething l.1) (tokenize text)) ∧
    (tokenize (writtenOut (tokenize text))).map values = (tokenize text).map values := by
  have hcut (ls : List (List Char)) :
      Text.CutIntoLines text.toList ls ↔ ls = Text.splitLines text.toList :=
    Text.cutIntoLines_iff.trans eq_comm
  have hgroups := forall₂_scanLines 1 (Text.splitLines text.toList)
  exact ⟨⟨_, hcut, hgroups⟩, values_tokenize_writtenOut text⟩

end RouterConsole.Config
