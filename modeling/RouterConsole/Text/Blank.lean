/-!
# Blanks and words

The blank characters of operator input and configuration text, and the words between them. Words,
column-counting tokens and trimming all read this one class, so they agree on where a word ends.
-/
namespace RouterConsole.Text

/-- The characters that separate words: the spaces of Unicode, the line separators and the
control characters that act as either. The zero-width characters are not among them. -/
def isBlank (c : Char) : Bool :=
  let n := c.toNat
  (9 ≤ n && n ≤ 13) || (28 ≤ n && n ≤ 32) || n == 0x85 || n == 0xA0 || n == 0x1680 ||
    (0x2000 ≤ n && n ≤ 0x200A) || n == 0x2028 || n == 0x2029 || n == 0x202F || n == 0x205F ||
    n == 0x3000

/-- The maximal runs of non-blank characters, in order. -/
def splitWords : List Char → List (List Char)
  | [] => []
  | c :: cs =>
    if isBlank c then splitWords cs
    else match cs with
      | [] => [[c]]
      | d :: _ =>
        if isBlank d then [c] :: splitWords cs
        else match splitWords cs with
          | [] => [[c]]
          | w :: ws => (c :: w) :: ws

def words (s : String) : List String := (splitWords s.toList).map String.ofList

def trimEnd (cs : List Char) : List Char := (cs.reverse.dropWhile isBlank).reverse

def trim (cs : List Char) : List Char := trimEnd (cs.dropWhile isBlank)

def trimmed (s : String) : String := String.ofList (trim s.toList)

def unwords (ws : List String) : String := String.intercalate " " ws

@[simp] theorem splitWords_nil : splitWords [] = [] := rfl

theorem splitWords_blank {c : Char} {cs : List Char} (h : isBlank c = true) :
    splitWords (c :: cs) = splitWords cs := by
  rw [splitWords.eq_def]
  exact if_pos h

theorem of_mem_splitWords {cs w : List Char} (h : w ∈ splitWords cs) :
    w ≠ [] ∧ ∀ c ∈ w, isBlank c = false := by
  induction cs generalizing w with
  | nil => exact absurd h List.not_mem_nil
  | cons c cs ih =>
    rw [splitWords.eq_def] at h
    cases hc : isBlank c with
    | true =>
      simp only [hc, if_true] at h
      exact ih h
    | false =>
      have single : [c] ≠ [] ∧ ∀ d ∈ [c], isBlank d = false := by simpa using hc
      simp only [hc, Bool.false_eq_true, if_false] at h
      split at h
      · rw [List.mem_singleton.mp h]
        exact single
      · split at h
        · rcases List.mem_cons.mp h with rfl | h
          · exact single
          · exact ih h
        · split at h
          · rw [List.mem_singleton.mp h]
            exact single
          · rename_i v vs hs
            rcases List.mem_cons.mp h with rfl | h
            · have hv := ih (hs ▸ List.mem_cons_self)
              refine ⟨by simp, fun d hd => ?_⟩
              rcases List.mem_cons.mp hd with rfl | hd
              · exact hc
              · exact hv.2 d hd
            · exact ih (hs ▸ List.mem_cons_of_mem _ h)

end RouterConsole.Text
