import RouterConsole.Proofs.Text.ReadBack

/-!
# The lines that a text is cut into

`splitLines` goes by single characters. Here the same lines are described by what stands between
them: a text is a line without breaks, an ending, and the lines of the rest, and only the last line
may do without an ending. There is one way to cut a text like this (`cutIntoLines_iff`).
-/
namespace RouterConsole.Text

/-- What may end a line in front of the given rest: a carriage return with its line feed, or any one
break. A carriage return does not end a line alone where a line feed follows it. -/
inductive EndsLine (rest : List Char) : List Char → Prop
  | pair : EndsLine rest ['\r', '\n']
  | single {c : Char} : isLineBreak c = true → (c = '\r' → rest.head? ≠ some '\n') →
      EndsLine rest [c]

/-- A text as lines. What follows the last ending is a line only if it is not empty. -/
inductive CutIntoLines : List Char → List (List Char) → Prop
  | nil : CutIntoLines [] []
  | last {l : List Char} : l ≠ [] → (∀ c ∈ l, isLineBreak c = false) → CutIntoLines l [l]
  | line {l ending rest : List Char} {ls : List (List Char)} :
      (∀ c ∈ l, isLineBreak c = false) → EndsLine rest ending → CutIntoLines rest ls →
      CutIntoLines (l ++ ending ++ rest) (l :: ls)

theorem splitLines_ending {l ending rest : List Char} (hl : ∀ c ∈ l, isLineBreak c = false)
    (he : EndsLine rest ending) : splitLines (l ++ ending ++ rest) = l :: splitLines rest := by
  induction l with
  | nil =>
    cases he with
    | pair => exact splitLines.eq_2 rest
    | single hc hfeed => exact splitLines_break hc hfeed
  | cons c l ih =>
    obtain ⟨hc, hl⟩ := List.forall_mem_cons.mp hl
    rw [List.append_assoc, List.cons_append, ← List.append_assoc, splitLines_char hc, ih hl]
    rfl

/-- A character that breaks no line goes into the first one. -/
theorem CutIntoLines.cons_char {c : Char} {cs : List Char} {ls : List (List Char)}
    (hc : isLineBreak c = false) (h : CutIntoLines cs ls) :
    CutIntoLines (c :: cs) ((c :: ls.headD []) :: ls.tail) := by
  cases h with
  | nil => exact .last (List.cons_ne_nil c []) (List.forall_mem_cons.mpr ⟨hc, nofun⟩)
  | last _ hl => exact .last (List.cons_ne_nil c _) (List.forall_mem_cons.mpr ⟨hc, hl⟩)
  | line hl he hrest => exact .line (List.forall_mem_cons.mpr ⟨hc, hl⟩) he hrest

theorem cutIntoLines_splitLines (cs : List Char) : CutIntoLines cs (splitLines cs) := by
  induction cs using splitLines.induct with
  | case1 => exact .nil
  | case2 cs ih =>
    rw [splitLines.eq_2]
    exact .line (List.forall_mem_nil _) .pair ih
  | case3 c cs hcs hc ih =>
    have hfeed : c = '\r' → cs.head? ≠ some '\n' := by
      intro hr hd
      obtain ⟨ds, hds⟩ := List.head?_eq_some_iff.mp hd
      exact hcs ds hr hds
    rw [splitLines_break hc hfeed]
    exact .line (List.forall_mem_nil _) (.single hc hfeed) ih
  | case4 c cs hcs hc hs ih | case5 c cs hcs hc l ls hs ih =>
    have hc : isLineBreak c = false := Bool.eq_false_iff.mpr hc
    rw [splitLines_char hc]
    exact ih.cons_char hc

/-- A text is cut into its lines, and in no other way. -/
theorem cutIntoLines_iff {cs : List Char} {ls : List (List Char)} :
    CutIntoLines cs ls ↔ splitLines cs = ls := by
  constructor
  · intro h
    induction h with
    | nil => rfl
    | last hne hl => exact splitLines_unbroken hne hl
    | line hl he _ ih => rw [splitLines_ending hl he, ih]
  · rintro rfl
    exact cutIntoLines_splitLines cs

example : lines "a\r\nb\n" = ["a", "b"] := by decide

end RouterConsole.Text
