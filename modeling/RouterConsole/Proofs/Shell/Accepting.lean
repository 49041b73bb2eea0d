import RouterConsole.Proofs.Shell.Completion

/-!
# Accepting completions

Who accepts a completion gets the text with the last characters replaced by the offered word. These
characters are the word that is being typed, if it ends the text; then the words of the new text are
those that were finished and the offered one. The last word is also taken to be typed where it is
followed by blanks and the last of them is no space. The characters that are replaced are then
other ones, and if there are more of them than blanks, the offered word is joined to the start of
the last word.
-/
namespace RouterConsole.Shell

open RouterConsole.Text (CutAtLast IsWord isBlank splitWords)

variable {r : Router} {c : Completion} {text word : String} {finished : List String}
  {before last blanks : List Char}

/-- The text after the offered word has taken the place of the characters that it replaces. -/
def Completion.accept (c : Completion) (text : String) : String :=
  String.ofList (text.toList.take (text.length - c.replaced)) ++ c.word

/-- The words that are complete before the cursor: the last one is if a blank follows it. -/
def completeWords (text : String) : List String :=
  if text.toList.getLast?.any isBlank then Text.words text else (Text.words text).dropLast

/-- A text whose last word is followed by blanks, no more than it has characters, of which the last
is no space. -/
structure Overtaken (text : String) (before last blanks : List Char) : Prop where
  cut : CutAtLast text.toList before last blanks
  no_space : ∃ b ∈ blanks.getLast?, b ≠ ' '
  short : blanks.length ≤ last.length

theorem completeWords_of_blank (h : ∃ b ∈ text.toList.getLast?, isBlank b = true) :
    completeWords text = Text.words text := by
  obtain ⟨b, hb, hblank⟩ := h
  rw [completeWords, Option.mem_def.mp hb]
  exact if_pos hblank

/-- The parts of a text around its last word are known from where the text ends. -/
theorem getLast?_of_cut (h : CutAtLast text.toList before last blanks) :
    (blanks = [] → ∀ b ∈ text.toList.getLast?, isBlank b = false) ∧
      (blanks ≠ [] → text.toList.getLast? = blanks.getLast? ∧
        ∃ b ∈ text.toList.getLast?, isBlank b = true) := by
  constructor
  · rintro rfl b hb
    rw [h.joined, List.append_nil, List.getLast?_append_of_ne_nil _ h.isWord.nonempty] at hb
    exact h.isWord.blank_free b (List.mem_of_getLast? hb)
  · intro hne
    have hlast : text.toList.getLast? = blanks.getLast? := by
      rw [h.joined, List.getLast?_append_of_ne_nil _ hne]
    have hmem : blanks.getLast hne ∈ blanks := List.getLast_mem hne
    refine ⟨hlast, blanks.getLast hne, ?_, List.all_eq_true.mp h.blank _ hmem⟩
    rw [hlast, List.getLast?_eq_some_getLast hne]
    rfl

theorem words_of_cut (h : CutAtLast text.toList before last blanks) :
    Text.words text = (splitWords before).map String.ofList ++ [String.ofList last] := by
  rw [Text.words, h.splitWords_eq, List.map_append]
  rfl

/-- A word that is put behind a blank, or at the start, is a word of its own. -/
theorem words_ofList_append {cs : List Char} {w : String}
    (h : ∀ b ∈ cs.getLast?, isBlank b = true) (hw : IsWord w.toList) :
    Text.words (String.ofList cs ++ w) = (splitWords cs).map String.ofList ++ [w] := by
  have hone : splitWords w.toList = [w.toList] := by
    have hsplit : splitWords (w.toList ++ []) = w.toList :: splitWords [] :=
      Text.splitWords_word hw nofun
    rwa [List.append_nil] at hsplit
  rw [Text.words, String.toList_append, String.toList_ofList, Text.splitWords_append h, hone,
    List.map_append]
  simp

/-! ## What is offered -/

/-- A completion replaces as many characters as the word being typed has, and is a word. -/
theorem of_mem_complete (hnames : ∀ name ∈ r.interfaceNames, IsWord name.toList)
    (h : Typed text finished word) (hc : c ∈ complete r text) :
    c.replaced = word.length ∧ IsWord c.word.toList := by
  constructor
  · rw [complete, typed_iff.mp h] at hc
    obtain ⟨p, -, rfl⟩ := List.mem_map.mp hc
    rfl
  · have hmem : c.word ∈ (complete r text).map (·.word) := List.mem_map_of_mem hc
    obtain ⟨-, command, -, -, p, hp, hoffers⟩ := (mem_complete_iff h).mp hmem
    rcases hoffers with rfl | ⟨-, hname⟩
    · exact command.isWord_text _ (List.mem_of_getElem? hp)
    · exact hnames c.word hname

/-- A completion of a new word is put at the end. -/
theorem words_accept_of_next (hw : IsWord c.word.toList) (hreplaced : c.replaced = 0)
    (h : Text.words text = [] ∨ text.toList.getLast? = some ' ') :
    Text.words (c.accept text) = completeWords text ++ [c.word] := by
  have hlast : ∀ b ∈ text.toList.getLast?, isBlank b = true := by
    intro b hb
    rcases h with h | h
    · have hall := Text.splitWords_eq_nil_iff.mp (List.map_eq_nil_iff.mp h)
      exact List.all_eq_true.mp hall b (List.mem_of_getLast? hb)
    · obtain rfl := Option.some.inj (h.symm.trans hb)
      decide
  have hcomplete : completeWords text = Text.words text := by
    rcases h with h | h
    · simp [completeWords, h]
    · exact completeWords_of_blank ⟨' ', h, by decide⟩
  have htext : text.toList.take (text.length - c.replaced) = text.toList := by
    rw [hreplaced, Nat.sub_zero, ← String.length_toList, List.take_length]
  rw [Completion.accept, htext, words_ofList_append hlast hw, hcomplete]
  rfl

/-- A completion of the last word leaves as many characters in its place as there are blanks. -/
theorem accept_of_cut (h : CutAtLast text.toList before last blanks)
    (hreplaced : c.replaced = last.length) : c.accept text =
      String.ofList (before ++ (last ++ blanks).take blanks.length) ++ c.word := by
  have hlength : text.length - c.replaced = before.length + blanks.length := by
    rw [← String.length_toList, h.joined, hreplaced]
    simp only [List.length_append]
    omega
  rw [Completion.accept, hlength, h.joined, List.append_assoc, List.take_length_add_append]

/-- A completion of a word that ends the text takes its place. -/
theorem words_accept_of_within (h : CutAtLast text.toList before last [])
    (hreplaced : c.replaced = last.length) (hw : IsWord c.word.toList) :
    Text.words (c.accept text) = completeWords text ++ [c.word] := by
  have hlast := (getLast?_of_cut h).1 rfl
  have hcomplete : completeWords text = (splitWords before).map String.ofList := by
    have hany : text.toList.getLast?.any isBlank = false := by
      rw [Option.any_eq_false]
      exact fun b hb => by simp [hlast b hb]
    rw [completeWords, hany, words_of_cut h, List.dropLast_concat]
    rfl
  rw [accept_of_cut h hreplaced, List.length_nil, List.take_zero, List.append_nil,
    words_ofList_append h.parted hw, hcomplete]

/-- Behind more blanks than the last word has characters, some blanks are left. -/
theorem words_accept_of_long (h : CutAtLast text.toList before last blanks)
    (hreplaced : c.replaced = last.length) (hw : IsWord c.word.toList)
    (hlong : last.length < blanks.length) :
    Text.words (c.accept text) = completeWords text ++ [c.word] := by
  have hne : blanks ≠ [] := List.ne_nil_of_length_pos (Nat.zero_lt_of_lt hlong)
  have hcomplete : completeWords text = Text.words text :=
    completeWords_of_blank ((getLast?_of_cut h).2 hne).2
  let kept : List Char := blanks.take (blanks.length - last.length)
  have htake : (last ++ blanks).take blanks.length = last ++ kept := by
    rw [List.take_append, List.take_of_length_le hlong.le]
  have hblank : kept.all isBlank = true :=
    List.all_eq_true.mpr fun b hb => List.all_eq_true.mp h.blank b (List.mem_of_mem_take hb)
  have hkept : CutAtLast (before ++ (last ++ kept)) before last kept :=
    ⟨(List.append_assoc _ _ _).symm, h.isWord, h.parted, hblank⟩
  have hkept_ne : kept ≠ [] := by
    refine List.ne_nil_of_length_pos ?_
    rw [List.length_take]
    omega
  have hend : ∀ b ∈ (before ++ (last ++ kept)).getLast?, isBlank b = true := by
    intro b hb
    rw [← List.append_assoc, List.getLast?_append_of_ne_nil _ hkept_ne] at hb
    exact List.all_eq_true.mp hblank b (List.mem_of_getLast? hb)
  rw [accept_of_cut h hreplaced, htake, words_ofList_append hend hw, hkept.splitWords_eq,
    hcomplete, words_of_cut h, List.map_append]
  rfl

/-- Behind fewer blanks the offered word is joined to what is left of the last one. -/
theorem words_accept_of_short (h : CutAtLast text.toList before last blanks)
    (hreplaced : c.replaced = last.length) (hw : IsWord c.word.toList)
    (hshort : blanks.length ≤ last.length) : Text.words (c.accept text) =
      (splitWords before).map String.ofList ++
        [String.ofList (last.take blanks.length) ++ c.word] := by
  have hjoined : IsWord (String.ofList (last.take blanks.length) ++ c.word).toList := by
    rw [String.toList_append, String.toList_ofList]
    refine ⟨List.append_ne_nil_of_right_ne_nil _ hw.nonempty, fun b hb => ?_⟩
    rcases List.mem_append.mp hb with hb | hb
    · exact h.isWord.blank_free b (List.mem_of_mem_take hb)
    · exact hw.blank_free b hb
  rw [accept_of_cut h hreplaced, List.take_append_of_le_length hshort, String.ofList_append,
    String.append_assoc, words_ofList_append h.parted hjoined]

theorem not_overtaken_of_next (h : Text.words text = [] ∨ text.toList.getLast? = some ' ') :
    ¬Overtaken text before last blanks := by
  rintro ⟨hcut, ⟨b, hb, hspace⟩, -⟩
  rcases h with h | h
  · simp [words_of_cut hcut] at h
  · have hne : blanks ≠ [] := by
      rintro rfl
      cases hb
    rw [((getLast?_of_cut hcut).2 hne).1] at h
    exact hspace (Option.some.inj (Option.mem_def.mp hb ▸ h))

theorem not_overtaken_of_char (h : ∀ b ∈ text.toList.getLast?, isBlank b = false) :
    ¬Overtaken text before last blanks := by
  rintro ⟨hcut, ⟨b, hb, -⟩, -⟩
  have hne : blanks ≠ [] := by
    rintro rfl
    cases hb
  obtain ⟨-, b, hb, hblank⟩ := (getLast?_of_cut hcut).2 hne
  rw [h b hb] at hblank
  cases hblank

/-- A finished word that is taken to be typed is not among the words of the new text. -/
theorem Overtaken.words_accept (h : Overtaken text before last blanks)
    (hreplaced : c.replaced = last.length) (hw : IsWord c.word.toList) :
    Text.words (c.accept text) = (splitWords before).map String.ofList ++
        [String.ofList (last.take blanks.length) ++ c.word] ∧
      Text.words (c.accept text) ≠ completeWords text ++ [c.word] := by
  have hwords := words_accept_of_short h.cut hreplaced hw h.short
  refine ⟨hwords, fun heq => ?_⟩
  have hne : blanks ≠ [] := by
    rintro rfl
    obtain ⟨b, hb, -⟩ := h.no_space
    cases hb
  rw [hwords, completeWords_of_blank ((getLast?_of_cut h.cut).2 hne).2, words_of_cut h.cut] at heq
  have hlength := congrArg List.length heq
  simp at hlength

/-- A word that is being typed, or is taken to be, ends the text, or stands before blanks. -/
theorem words_accept_of_cut (h : CutAtLast text.toList before last blanks)
    (hspace : text.toList.getLast? ≠ some ' ') (hreplaced : c.replaced = last.length)
    (hw : IsWord c.word.toList) (hover : ¬Overtaken text before last blanks) :
    Text.words (c.accept text) = completeWords text ++ [c.word] := by
  by_cases hnil : blanks = []
  · subst hnil
    exact words_accept_of_within h hreplaced hw
  · obtain ⟨hlast, b, hb, -⟩ := (getLast?_of_cut h).2 hnil
    by_cases hlong : last.length < blanks.length
    · exact words_accept_of_long h hreplaced hw hlong
    · refine absurd ⟨h, ⟨b, hlast ▸ hb, ?_⟩, Nat.le_of_not_lt hlong⟩ hover
      rintro rfl
      exact hspace hb

/-- A word that is offered is put in the place of the word that is being typed, after the words that
are complete before the cursor, exactly if the text does not end in blanks other than a space after
a word that is no shorter than they are. There it is joined to the first characters of that word, as
many as there are blanks. -/
theorem accepted_completion_follows_words (r : Router)
    (hnames : ∀ name ∈ r.interfaceNames, IsWord name.toList) (text : String) {c : Completion}
    (hc : c ∈ complete r text) :
    (Text.words (c.accept text) = completeWords text ++ [c.word] ↔
        ∀ before last blanks, ¬Overtaken text before last blanks) ∧
      ∀ before last blanks, Overtaken text before last blanks →
        Text.words (c.accept text) = (splitWords before).map String.ofList ++
          [String.ofList (last.take blanks.length) ++ c.word] := by
  rcases hparts : typedWords text with ⟨finished, word⟩
  have htyped : Typed text finished word := typed_iff.mpr hparts
  obtain ⟨hreplaced, hw⟩ := of_mem_complete hnames htyped hc
  cases htyped with
  | next h =>
    have hnot : ∀ before last blanks, ¬Overtaken text before last blanks := fun _ _ _ =>
      not_overtaken_of_next h
    exact ⟨iff_of_true (words_accept_of_next hw hreplaced h) hnot,
      fun before last blanks hover => absurd hover (hnot before last blanks)⟩
  | within hspace hwords =>
    have hlast : ∀ {before last blanks}, CutAtLast text.toList before last blanks →
        c.replaced = last.length := by
      intro before last blanks hcut
      have hword := List.append_inj_right' ((words_of_cut hcut).symm.trans hwords) rfl
      rw [hreplaced, ← List.singleton_inj.mp hword, String.length_ofList]
    have hsome : splitWords text.toList ≠ [] := by
      intro hnil
      simp [Text.words, hnil] at hwords
    obtain ⟨before, last, blanks, hcut⟩ := Text.exists_cutAtLast hsome
    refine ⟨⟨fun heq _ _ _ hover => ?_, fun hnot => ?_⟩, fun _ _ _ hover => ?_⟩
    · exact (hover.words_accept (hlast hover.cut) hw).2 heq
    · exact words_accept_of_cut hcut hspace (hlast hcut) hw (hnot before last blanks)
    · exact (hover.words_accept (hlast hover.cut) hw).1

/-- The name of an interface, begun behind blanks of several kinds. -/
theorem accepted_completion_follows_words_of_interface :
    let r := (Router.new "edge" [.fresh "eth0" ⟨.replicate 6 2⟩]).forceMode .configuration
    let text := "\tset interfaces\u2003ethernet\t et"
    let c : Completion := ⟨"eth0", 2, "interface"⟩
    c ∈ complete r text ∧ c.accept text = "\tset interfaces\u2003ethernet\t eth0" ∧
      Text.words (c.accept text) = ["set", "interfaces", "ethernet", "eth0"] := by
  intro r text c
  have hnames : ∀ name ∈ r.interfaceNames, IsWord name.toList := by
    change ∀ name ∈ ["eth0"], IsWord name.toList
    decide
  have hc : c ∈ complete r text := by decide +kernel
  have hlast : text.toList.getLast? = some 't' := by decide +kernel
  have hchar : ∀ b ∈ text.toList.getLast?, isBlank b = false := by
    intro b hb
    obtain rfl := Option.some.inj (hlast.symm.trans hb)
    decide
  have hcomplete : completeWords text = ["set", "interfaces", "ethernet"] := by decide +kernel
  have hwords := (accepted_completion_follows_words r hnames text hc).1.mpr
    fun _ _ _ => not_overtaken_of_char hchar
  rw [hcomplete] at hwords
  exact ⟨hc, by decide +kernel, hwords⟩

/-- After a keyword and a tab the keyword is offered again, and is put behind its first letter. -/
theorem completion_joined_behind_tab :
    let r := Router.new "edge" [.fresh "eth0" ⟨.replicate 6 2⟩]
    let c : Completion := ⟨"show", 4, "Display the routing table"⟩
    c ∈ complete r "show\t" ∧ completeWords "show\t" = ["show"] ∧
      Text.words (c.accept "show\t") = ["sshow"] ∧
      Text.words (c.accept "show\t") ≠ completeWords "show\t" ++ [c.word] := by
  decide +kernel

end RouterConsole.Shell
