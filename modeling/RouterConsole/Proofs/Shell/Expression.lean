import Mathlib.Data.List.TakeWhile
import RouterConsole.Proofs.Shell.Matching
import RouterConsole.Proofs.Text.ReadBack

/-!
# Patterns as expressions

A pattern can also be read as one expression over the characters of a line: any blanks, then its
words with at least one blank between them, then any blanks and the end of the line. A keyword
stands for its characters and a placeholder for a run of characters that are no blanks. Such an
expression is matched by backtracking, and a run that is cut short could split a word in two. It
never does: nothing matches in the middle of a word, so that the expression matches a line exactly
if the pattern fits the words of the line, and gives the placeholders the same words.
-/
namespace RouterConsole.Shell

open RouterConsole.Text (IsWord isBlank splitWords)

/-- An item of an expression, by what it takes from the front of a text. -/
inductive Item where
  /-- Blanks, at least so many. -/
  | blanks (least : Nat)
  | literal (text : String)
  /-- Characters that are no blanks, at least one, which are kept under a name. -/
  | capture (name : String)
  /-- Nothing, at the end of the text or in front of a line feed that ends it. -/
  | finish
  deriving DecidableEq, Repr

/-- The ways to take a run of such characters from the front of a text, the longest first: what is
taken and what is left. -/
def runs (p : Char → Bool) : List Char → List (List Char × List Char)
  | [] => [([], [])]
  | c :: cs =>
    (if p c then (runs p cs).map fun (run, rest) => (c :: run, rest) else []) ++ [([], c :: cs)]

namespace Item

def ofWord : PatternWord → Item
  | .keyword k => literal k
  | .placeholder _ name => capture name

/-- What items keep when they match the front of a text, one after the other. A run is first taken
as long as it can be, and shorter only if the items after it do not match what is left. -/
def matchAll : List Item → List Char → Option Arguments
  | [], _ => some []
  | blanks least :: items, cs =>
    (runs isBlank cs).findSome? fun (run, rest) =>
      if least ≤ run.length then matchAll items rest else none
  | literal t :: items, cs =>
    if t.toList <+: cs then matchAll items (cs.drop t.toList.length) else none
  | capture name :: items, cs =>
    (runs (!isBlank ·) cs).findSome? fun (run, rest) =>
      if run = [] then none else (matchAll items rest).map ((name, String.ofList run) :: ·)
  | finish :: items, cs => if cs = [] ∨ cs = ['\n'] then matchAll items cs else none

end Item

/-- The expression that a pattern compiles to. -/
def Pattern.expression (p : Pattern) : List Item :=
  .blanks 0 :: (p.words.map .ofWord).intersperse (.blanks 1) ++ [.blanks 0, .finish]

/-! ## Runs -/

section Runs

variable {α : Type} {p : Char → Bool} {cs : List Char}

/-- The longest run is tried first; every other one leaves a character that could be taken. -/
theorem exists_shorter_runs (p : Char → Bool) (cs : List Char) :
    ∃ shorter, runs p cs = (cs.takeWhile p, cs.dropWhile p) :: shorter ∧
      ∀ cut ∈ shorter, ∃ c rest, cut.2 = c :: rest ∧ p c = true := by
  induction cs with
  | nil => exact ⟨[], rfl, nofun⟩
  | cons c cs ih =>
    cases hc : p c with
    | false => exact ⟨[], by simp [runs, hc], nofun⟩
    | true =>
      obtain ⟨shorter, hruns, hshorter⟩ := ih
      refine ⟨shorter.map (fun (run, rest) => (c :: run, rest)) ++ [([], c :: cs)], ?_, ?_⟩
      · simp [runs, hc, hruns]
      · intro cut hcut
        rcases List.mem_append.mp hcut with hcut | hcut
        · obtain ⟨cut, hmem, rfl⟩ := List.mem_map.mp hcut
          exact hshorter cut hmem
        · obtain rfl := List.mem_singleton.mp hcut
          exact ⟨c, cs, rfl, hc⟩

theorem of_mem_runs {cut : List Char × List Char} (h : cut ∈ runs p cs) :
    cut.1 ++ cut.2 = cs ∧ cut.1.all p = true := by
  induction cs generalizing cut with
  | nil =>
    obtain rfl := List.mem_singleton.mp h
    exact ⟨rfl, rfl⟩
  | cons c cs ih =>
    rcases List.mem_append.mp h with h | h
    · cases hc : p c with
      | false => simp [hc] at h
      | true =>
        rw [hc, if_pos rfl] at h
        obtain ⟨cut, hmem, rfl⟩ := List.mem_map.mp h
        obtain ⟨hjoined, hall⟩ := ih hmem
        exact ⟨congrArg (c :: ·) hjoined, by simp [hc, hall]⟩
    · obtain rfl := List.mem_singleton.mp h
      exact ⟨rfl, rfl⟩

/-- Where nothing goes on from a character that could be taken, only the longest run counts. -/
theorem findSome?_runs {f : List Char × List Char → Option α}
    (h : ∀ run c rest, p c = true → f (run, c :: rest) = none) :
    (runs p cs).findSome? f = f (cs.takeWhile p, cs.dropWhile p) := by
  obtain ⟨shorter, hruns, hshorter⟩ := exists_shorter_runs p cs
  have hnone : shorter.findSome? f = none := by
    refine List.findSome?_eq_none_iff.mpr fun cut hcut => ?_
    obtain ⟨run, rest⟩ := cut
    obtain ⟨c, rest, rfl, hc⟩ := hshorter _ hcut
    exact h run c rest hc
  rw [hruns, List.findSome?_cons, hnone]
  cases f (cs.takeWhile p, cs.dropWhile p) <;> rfl

/-- Where it does not matter how much is taken, the first run counts. -/
theorem findSome?_runs_of_const {f : List Char × List Char → Option α} {v : Option α}
    (h : ∀ cut ∈ runs p cs, f cut = v) : (runs p cs).findSome? f = v := by
  obtain ⟨shorter, hruns, -⟩ := exists_shorter_runs p cs
  rw [hruns] at h ⊢
  obtain ⟨hfirst, hshorter⟩ := List.forall_mem_cons.mp h
  rw [List.findSome?_cons, hfirst]
  cases v with
  | some a => rfl
  | none => exact List.findSome?_eq_none_iff.mpr hshorter

end Runs

/-- After the blanks comes another character, if anything does. -/
theorem not_isBlank_of_head?_dropWhile {cs : List Char} {c : Char}
    (hc : c ∈ (cs.dropWhile isBlank).head?) : isBlank c = false := by
  have h := List.head?_dropWhile_not isBlank cs
  rw [hc] at h
  simpa using h

/-- An empty pattern fits the texts that are all blanks. -/
theorem Pattern.matchWords_nil_words (cs : List Char) :
    matchWords [] ((splitWords cs).map String.ofList) =
      if cs.all isBlank = true then some [] else none := by
  by_cases hall : cs.all isBlank = true
  · rw [if_pos hall, Text.splitWords_eq_nil_iff.mpr hall]
    rfl
  · rw [if_neg hall]
    obtain ⟨w, ws, hwords⟩ := List.exists_cons_of_ne_nil (mt Text.splitWords_eq_nil_iff.mp hall)
    rw [hwords]
    rfl

/-! ## Items between words and in the middle of words -/

namespace Item

variable {items : List Item} {ps : List PatternWord} {p : PatternWord} {cs : List Char}

/-- Items that match nothing that starts with a blank follow all the blanks there are. -/
theorem matchAll_blanks (h : ∀ c cs, isBlank c = true → matchAll items (c :: cs) = none)
    (least : Nat) (cs : List Char) : matchAll (blanks least :: items) cs =
      if least ≤ (cs.takeWhile isBlank).length then matchAll items (cs.dropWhile isBlank)
      else none := by
  rw [matchAll, findSome?_runs fun run c rest hc => by simp [h c rest hc]]

/-- Items that match nothing that starts with another character follow the end of a word. -/
theorem matchAll_capture (h : ∀ c cs, isBlank c = false → matchAll items (c :: cs) = none)
    (name : String) (cs : List Char) : matchAll (capture name :: items) cs =
      if cs.takeWhile (!isBlank ·) = [] then none
      else (matchAll items (cs.dropWhile (!isBlank ·))).map
        ((name, String.ofList (cs.takeWhile (!isBlank ·))) :: ·) := by
  have hnone : ∀ run c rest, (!isBlank c) = true → (if run = [] then none
      else (matchAll items (c :: rest)).map ((name, String.ofList run) :: ·)) = none := by
    intro run c rest hc
    simp [h c rest (by simpa using hc)]
  rw [matchAll, findSome?_runs hnone]

/-- A word at the front of a text starts the first word of the text. -/
theorem prefix_takeWhile_of_isWord {k : List Char} (hk : IsWord k) (h : k <+: cs) :
    k <+: cs.takeWhile (!isBlank ·) := by
  obtain ⟨rest, rfl⟩ := h
  have hall : ∀ c ∈ k, (!isBlank c) = true := fun c hc => by simp [hk.blank_free c hc]
  rw [List.takeWhile_append_of_pos hall]
  exact List.prefix_append k _

/-- A keyword in front of such items is the whole first word of a text. -/
theorem matchAll_literal (h : ∀ c cs, isBlank c = false → matchAll items (c :: cs) = none)
    {k : String} (hk : IsWord k.toList) (cs : List Char) : matchAll (literal k :: items) cs =
      if cs.takeWhile (!isBlank ·) = k.toList then matchAll items (cs.dropWhile (!isBlank ·))
      else none := by
  have hcut : cs.takeWhile (!isBlank ·) ++ cs.dropWhile (!isBlank ·) = cs :=
    List.takeWhile_append_dropWhile
  rw [matchAll]
  by_cases hword : cs.takeWhile (!isBlank ·) = k.toList
  · have hrest : cs.drop k.toList.length = cs.dropWhile (!isBlank ·) := by
      conv_lhs => rw [← hcut, ← hword, List.drop_left]
    rw [if_pos hword, if_pos ⟨_, hword ▸ hcut⟩, hrest]
  · rw [if_neg hword]
    split
    · rename_i hprefix
      -- The keyword ends in the middle of the word.
      obtain ⟨more, hmore⟩ := prefix_takeWhile_of_isWord hk hprefix
      cases more with
      | nil => exact absurd (by rw [← hmore, List.append_nil]) hword
      | cons c more =>
        have hc : isBlank c = false := by
          have hmem : c ∈ cs.takeWhile (!isBlank ·) := by simp [← hmore]
          simpa using List.mem_takeWhile_imp hmem
        have hdrop : cs.drop k.toList.length = c :: (more ++ cs.dropWhile (!isBlank ·)) := by
          conv_lhs => rw [← hcut, ← hmore, List.append_assoc, List.drop_left]
          rfl
        rw [hdrop, h c _ hc]
    · rfl

/-- The end of an expression takes blanks and nothing else. -/
theorem matchAll_ending (cs : List Char) :
    matchAll [blanks 0, finish] cs = if cs.all isBlank = true then some [] else none := by
  rw [matchAll]
  by_cases hall : cs.all isBlank = true
  · obtain ⟨shorter, hruns, -⟩ := exists_shorter_runs isBlank cs
    have hrest : cs.dropWhile isBlank = [] :=
      List.dropWhile_eq_nil_iff.mpr (List.all_eq_true.mp hall)
    rw [if_pos hall, hruns, List.findSome?_cons, hrest]
    rfl
  · rw [if_neg hall]
    refine findSome?_runs_of_const fun cut hcut => ?_
    obtain ⟨rfl, hrun⟩ := of_mem_runs hcut
    have hleft : ¬(cut.2 = [] ∨ cut.2 = ['\n']) := by
      rintro (hnil | hfeed)
      · exact hall (by rw [hnil, List.append_nil, hrun])
      · exact hall (by rw [hfeed, List.all_append, hrun]; decide)
    simp [matchAll, hleft]

/-- The items for some words that are each preceded by blanks, and for the end of the line. -/
def following (ps : List PatternWord) : List Item :=
  ps.flatMap (fun p => [blanks 1, ofWord p]) ++ [blanks 0, finish]

theorem following_cons (p : PatternWord) (ps : List PatternWord) :
    following (p :: ps) = blanks 1 :: ofWord p :: following ps := rfl

theorem intersperse_eq (p : PatternWord) (ps : List PatternWord) :
    ((p :: ps).map ofWord).intersperse (blanks 1) ++ [blanks 0, finish] =
      ofWord p :: following ps := by
  induction ps generalizing p with
  | nil => rfl
  | cons q ps ih =>
    rw [following_cons, ← ih q]
    rfl

/-- What follows a word does not match in the middle of one. -/
theorem matchAll_following_of_char {c : Char} (hc : isBlank c = false) (cs : List Char) :
    matchAll (following ps) (c :: cs) = none := by
  cases ps with
  | nil =>
    refine (matchAll_ending (c :: cs)).trans (if_neg ?_)
    simp [hc]
  | cons p ps =>
    have hruns : runs isBlank (c :: cs) = [([], c :: cs)] := by simp [runs, hc]
    rw [following_cons, matchAll, hruns]
    rfl

/-- No word of a pattern starts at a blank. -/
theorem matchAll_ofWord_of_blank (hp : ∀ k, p = .keyword k → IsWord k.toList) {c : Char}
    (hc : isBlank c = true) (cs : List Char) : matchAll (ofWord p :: items) (c :: cs) = none := by
  cases p with
  | keyword k =>
    have hk : IsWord k.toList := hp k rfl
    refine if_neg fun hprefix => ?_
    have hshort := prefix_takeWhile_of_isWord hk hprefix
    rw [List.takeWhile_cons_of_neg (by simp [hc]), List.prefix_nil] at hshort
    exact hk.nonempty hshort
  | placeholder text name =>
    have hruns : runs (!isBlank ·) (c :: cs) = [([], c :: cs)] := by simp [runs, hc]
    rw [ofWord, matchAll, hruns]
    rfl

/-- The words of a pattern that starts at a word match what the pattern fits, if the words after
the first one do. -/
theorem matchAll_ofWord (hp : ∀ k, p = .keyword k → IsWord k.toList)
    (hcs : ∀ c ∈ cs.head?, isBlank c = false)
    (hrest : ∀ rest, (∀ b ∈ rest.head?, isBlank b = true) → matchAll (following ps) rest =
      Pattern.matchWords ps ((splitWords rest).map String.ofList)) :
    matchAll (ofWord p :: following ps) cs =
      Pattern.matchWords (p :: ps) ((splitWords cs).map String.ofList) := by
  have hmiddle : ∀ c cs, isBlank c = false → matchAll (following ps) (c :: cs) = none :=
    fun c cs hc => matchAll_following_of_char hc cs
  cases cs with
  | nil =>
    cases p with
    | keyword k =>
      rw [ofWord, matchAll_literal hmiddle (hp k rfl)]
      exact if_neg fun hnil => (hp k rfl).nonempty hnil.symm
    | placeholder => rfl
  | cons c cs =>
    have hc : isBlank c = false := hcs c rfl
    have htake : (c :: cs).takeWhile (!isBlank ·) = c :: cs.takeWhile (!isBlank ·) :=
      List.takeWhile_cons_of_pos (by simp [hc])
    have hdrop : (c :: cs).dropWhile (!isBlank ·) = cs.dropWhile (!isBlank ·) :=
      List.dropWhile_cons_of_pos (by simp [hc])
    have hblank : ∀ b ∈ (cs.dropWhile (!isBlank ·)).head?, isBlank b = true := fun _ =>
      Text.isBlank_of_head?_dropWhile
    rw [Text.splitWords_cons hc, List.map_cons]
    cases p with
    | keyword k =>
      rw [ofWord, matchAll_literal hmiddle (hp k rfl), htake, hdrop, hrest _ hblank,
        Pattern.matchWords]
      simp only [← String.toList_inj, String.toList_ofList]
    | placeholder text name =>
      rw [ofWord, matchAll_capture hmiddle, htake, hdrop, hrest _ hblank, Pattern.matchWords,
        if_neg (List.cons_ne_nil _ _)]

/-- What follows a word matches what the remaining words of the pattern fit. -/
theorem matchAll_following (hps : ∀ k, .keyword k ∈ ps → IsWord k.toList)
    (hcs : ∀ b ∈ cs.head?, isBlank b = true) : matchAll (following ps) cs =
      Pattern.matchWords ps ((splitWords cs).map String.ofList) := by
  induction ps generalizing cs with
  | nil => exact (matchAll_ending cs).trans (Pattern.matchWords_nil_words cs).symm
  | cons p ps ih =>
    have hp : ∀ k, p = .keyword k → IsWord k.toList := fun k hk => hps k (by simp [hk])
    have hstart : ∀ c ∈ (cs.dropWhile isBlank).head?, isBlank c = false := fun _ =>
      not_isBlank_of_head?_dropWhile
    have hword := matchAll_ofWord hp hstart fun rest hrest =>
      ih (fun k hk => hps k (List.mem_cons_of_mem p hk)) hrest
    rw [Text.splitWords_dropBlanks] at hword
    rw [following_cons, matchAll_blanks fun c cs hc => matchAll_ofWord_of_blank hp hc cs, hword]
    cases cs with
    | nil => cases p <;> rfl
    | cons b cs =>
      rw [List.takeWhile_cons_of_pos (hcs b rfl)]
      exact if_pos (Nat.succ_le_succ (Nat.zero_le _))

end Item

/-- The expression of a pattern gives the placeholders the words that the pattern gives them. -/
theorem Pattern.matchAll_expression {p : Pattern} (h : ∀ k, .keyword k ∈ p.words → IsWord k.toList)
    (line : String) : Item.matchAll p.expression line.toList = p.arguments? line := by
  rw [expression, arguments?, Text.words]
  cases hwords : p.words with
  | nil =>
    rw [matchWords_nil_words]
    refine findSome?_runs_of_const fun cut hcut => ?_
    obtain ⟨hjoined, hrun⟩ := of_mem_runs hcut
    rw [← hjoined, List.all_append, hrun, Bool.true_and]
    exact (if_pos (Nat.zero_le _)).trans (Item.matchAll_ending cut.2)
  | cons q qs =>
    rw [hwords] at h
    have hq : ∀ k, q = .keyword k → IsWord k.toList := fun k hk => h k (by simp [hk])
    have hstart : ∀ c ∈ (line.toList.dropWhile isBlank).head?, isBlank c = false := fun _ =>
      not_isBlank_of_head?_dropWhile
    have hword := Item.matchAll_ofWord hq hstart fun rest hrest =>
      Item.matchAll_following (fun k hk => h k (List.mem_cons_of_mem q hk)) hrest
    rw [Text.splitWords_dropBlanks] at hword
    rw [List.cons_append, Item.intersperse_eq,
      Item.matchAll_blanks fun c cs hc => Item.matchAll_ofWord_of_blank hq hc cs, hword]
    exact if_pos (Nat.zero_le _)

end RouterConsole.Shell
