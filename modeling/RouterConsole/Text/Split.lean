/-!
# Splitting at a separator
-/
namespace RouterConsole.Text

/-- The parts of a text between the occurrences of a separator; a text without one is one part. -/
def splitAt (sep : Char) : List Char → List (List Char)
  | [] => [[]]
  | c :: cs =>
    if c = sep then [] :: splitAt sep cs
    else match splitAt sep cs with
      | [] => [[c]]
      | p :: ps => (c :: p) :: ps

theorem splitAt_ne_nil (sep : Char) (cs : List Char) : splitAt sep cs ≠ [] := by
  cases cs with
  | nil => simp [splitAt]
  | cons c cs =>
    unfold splitAt
    split
    · simp
    · split <;> simp

theorem not_mem_of_mem_splitAt {sep : Char} {cs p : List Char} (h : p ∈ splitAt sep cs) :
    sep ∉ p := by
  induction cs generalizing p with
  | nil =>
    simp only [splitAt, List.mem_singleton] at h
    simp [h]
  | cons c cs ih =>
    unfold splitAt at h
    split at h
    · rcases List.mem_cons.mp h with rfl | h
      · simp
      · exact ih h
    · rename_i hc
      split at h
      · rename_i hs
        exact absurd hs (splitAt_ne_nil sep cs)
      · rename_i q qs hs
        rcases List.mem_cons.mp h with rfl | h
        · have := ih (hs ▸ List.mem_cons_self : q ∈ splitAt sep cs)
          simp only [List.mem_cons, not_or]
          exact ⟨fun e => hc e.symm, this⟩
        · exact ih (hs ▸ List.mem_cons_of_mem _ h)

theorem intercalate_splitAt (sep : Char) (cs : List Char) :
    [sep].intercalate (splitAt sep cs) = cs := by
  induction cs with
  | nil => rfl
  | cons c cs ih =>
    unfold splitAt
    split
    · rename_i hc
      subst hc
      cases hs : splitAt c cs with
      | nil => exact absurd hs (splitAt_ne_nil c cs)
      | cons q qs =>
        rw [hs] at ih
        simp [List.intercalate, List.intersperse] at ih ⊢
        exact ih
    · split
      · rename_i hs
        exact absurd hs (splitAt_ne_nil sep cs)
      · rename_i q qs hs
        rw [hs] at ih
        cases qs with
        | nil => simpa [List.intercalate] using ih
        | cons r rs => simpa [List.intercalate, List.intersperse] using ih

end RouterConsole.Text
