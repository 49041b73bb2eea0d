import RouterConsole.Proofs.Shell.Matching
import RouterConsole.Proofs.Text.ReadBack
import RouterConsole.Shell.Completion

/-!
# Completion and calls

Completion walks the patterns word by word, dispatch matches whole lines, and both describe the same
language: a completion can always be continued to a line that calls a command of the mode, and a
word of such a line is offered after any part of it, as far as words of its kind are offered at all.
-/
namespace RouterConsole.Shell

variable {files : Storage.Files} {r : Router} {c : Command} {text word w : String}
  {finished ws : List String} {ps : List PatternWord} {args : Arguments}

/-! ## The word that is being typed -/

/-- How a text is cut for completion: after a space or at the start a new word begins, and otherwise
the last word is still being typed. -/
inductive Typed (text : String) : List String → String → Prop
  | next : Text.words text = [] ∨ text.toList.getLast? = some ' ' → Typed text (Text.words text) ""
  | within {finished : List String} {word : String} : text.toList.getLast? ≠ some ' ' →
      Text.words text = finished ++ [word] → Typed text finished word

theorem Typed.of_words (hwords : Text.words text = ws)
    (h : ws = [] ∨ text.toList.getLast? = some ' ') : Typed text ws "" := by
  subst hwords
  exact .next h

theorem typedWords_of_blank (h : Text.words text = []) : typedWords text = ([], "") := by
  simp only [typedWords, h, List.getLast?_nil]

theorem typedWords_of_words (h : Text.words text = finished ++ [word]) :
    typedWords text =
      if text.toList.getLast? = some ' ' then (finished ++ [word], "") else (finished, word) := by
  simp only [typedWords, h, List.getLast?_concat, List.dropLast_concat]

theorem typed_iff : Typed text finished word ↔ typedWords text = (finished, word) := by
  constructor
  · rintro (h | ⟨hlast, hwords⟩)
    · rcases List.eq_nil_or_concat' (Text.words text) with hnil | ⟨init, last, hwords⟩
      · rw [typedWords_of_blank hnil, hnil]
      · have hspace := h.resolve_left (by simp [hwords])
        rw [typedWords_of_words hwords, if_pos hspace, hwords]
    · rw [typedWords_of_words hwords, if_neg hlast]
  · intro h
    rcases List.eq_nil_or_concat' (Text.words text) with hnil | ⟨init, last, hwords⟩
    · rw [typedWords_of_blank hnil] at h
      cases h
      exact .of_words hnil (.inl rfl)
    · rw [typedWords_of_words hwords] at h
      split at h <;> rename_i hspace <;> cases h
      · exact .of_words hwords (.inr hspace)
      · exact .within hspace hwords

theorem Typed.isWord (h : Typed text finished word) : ∀ w ∈ finished, Text.IsWord w.toList := by
  intro w hw
  rcases h with h | ⟨-, hwords⟩
  · exact Text.isWord_of_mem_words hw
  · have hmem : w ∈ Text.words text := by simp [hwords, hw]
    exact Text.isWord_of_mem_words hmem

/-- Words that are each followed by a space are finished, and what stands after them is typed. -/
theorem typed_spaced (hws : ∀ w ∈ ws, Text.IsWord w.toList)
    (hword : ∀ c ∈ word.toList, Text.isBlank c = false) :
    Typed (String.join (ws.map (· ++ " ")) ++ word) ws word := by
  have hwords : Text.words (String.join (ws.map (· ++ " ")) ++ word) =
      ws ++ [word].filter (· ≠ "") := by
    have hnone : ∀ w ∈ ([] : List String), Text.IsWord w.toList := nofun
    rw [Text.join_spaced, Text.words_unwords_among hws hword hnone, List.append_nil]
  by_cases hempty : word = ""
  · subst hempty
    rw [List.filter_cons_of_neg (by simp), List.filter_nil, List.append_nil] at hwords
    have hspace : ws = [] ∨ (String.join (ws.map (· ++ " ")) ++ "").toList.getLast? = some ' ' := by
      rcases List.eq_nil_or_concat' ws with hnil | ⟨init, last, rfl⟩
      · exact .inl hnil
      · exact .inr (by simp)
    exact .of_words hwords hspace
  · rw [List.filter_cons_of_pos (by simp [hempty]), List.filter_nil] at hwords
    refine .within (fun hspace => ?_) hwords
    have hne : word.toList ≠ [] := by simpa using hempty
    rw [String.toList_append, List.getLast?_append_of_ne_nil _ hne] at hspace
    have hblank := hword ' ' (List.mem_of_getLast? hspace)
    cases hblank

/-! ## Words that fit the start of a pattern -/

theorem fits_nil (ps : List PatternWord) : fits ps [] = true := by
  cases ps <;> rfl

theorem fits_cons_iff {p : PatternWord} :
    fits (p :: ps) (w :: ws) = true ↔ (∀ k, p = .keyword k → w = k) ∧ fits ps ws = true := by
  cases p <;> simp [fits]

/-- One more word fits if it is the keyword that is due, or if none is. -/
theorem fits_append_singleton {p : PatternWord} (h : fits ps ws = true)
    (hp : ps[ws.length]? = some p) (hw : ∀ k, p = .keyword k → w = k) :
    fits ps (ws ++ [w]) = true := by
  induction ws generalizing ps with
  | nil =>
    obtain ⟨qs, rfl⟩ : ∃ qs, ps = p :: qs :=
      List.head?_eq_some_iff.mp (by simpa [List.head?_eq_getElem?] using hp)
    exact fits_cons_iff.mpr ⟨hw, fits_nil qs⟩
  | cons v ws ih =>
    cases ps with
    | nil => cases h
    | cons q qs =>
      obtain ⟨hv, hrest⟩ := fits_cons_iff.mp h
      exact fits_cons_iff.mpr ⟨hv, ih hrest (by simpa using hp)⟩

/-- Words that fit the start of a pattern fit all of it when its other words follow them as they
are written. -/
theorem matchWords_of_fits (h : fits ps ws = true) :
    ∃ args, Pattern.matchWords ps (ws ++ (ps.drop ws.length).map (·.text)) = some args := by
  induction ps generalizing ws with
  | nil =>
    cases ws with
    | nil => exact ⟨[], rfl⟩
    | cons w ws => cases h
  | cons p ps ih =>
    have hcons : ∀ w ws, (∀ k, p = .keyword k → w = k) →
        (∃ args, Pattern.matchWords ps ws = some args) →
        ∃ args, Pattern.matchWords (p :: ps) (w :: ws) = some args := by
      rintro w ws hw ⟨args, hargs⟩
      cases p with
      | keyword k =>
        obtain rfl := hw k rfl
        exact ⟨args, Pattern.matchWords_keyword_iff.mpr ⟨ws, rfl, hargs⟩⟩
      | placeholder t n =>
        exact ⟨(n, w) :: args,
          Pattern.matchWords_placeholder_iff.mpr ⟨w, ws, args, rfl, hargs, rfl⟩⟩
    cases ws with
    | nil =>
      refine hcons p.text _ ?_ (ih (fits_nil ps))
      rintro k rfl
      rfl
    | cons w ws =>
      obtain ⟨hw, hrest⟩ := fits_cons_iff.mp h
      exact hcons w _ hw (ih hrest)

/-- The words of a line that fits a pattern fit its start, one by one. -/
theorem fits_of_matchWords (h : Pattern.matchWords ps ws = some args) (k : Nat) :
    fits ps (ws.take k) = true ∧
      ∀ p w, ps[k]? = some p → ws[k]? = some w → ∀ keyword, p = .keyword keyword → w = keyword := by
  induction ps generalizing ws args k with
  | nil =>
    obtain ⟨rfl, -⟩ := Pattern.matchWords_nil_iff.mp h
    exact ⟨by simp [fits], nofun⟩
  | cons p ps ih =>
    obtain ⟨w, ws, args', rfl, hrest, hw⟩ := Pattern.of_matchWords_cons h
    cases k with
    | zero =>
      refine ⟨fits_nil _, ?_⟩
      rintro _ _ ⟨⟩ ⟨⟩
      exact hw
    | succ k =>
      obtain ⟨hfits, hword⟩ := ih hrest k
      exact ⟨fits_cons_iff.mpr ⟨hw, hfits⟩, by simpa using hword⟩

/-! ## What is offered -/

/-- Whether completion offers a word for a word of a pattern. -/
def Offers (r : Router) (p : PatternWord) (w : String) : Prop :=
  p = .keyword w ∨ p.name? = some "interface" ∧ w ∈ r.interfaceNames

theorem Offers.keyword {p : PatternWord} (h : Offers r p w) : ∀ k, p = .keyword k → w = k := by
  rintro k rfl
  rcases h with h | ⟨h, -⟩
  · exact (PatternWord.keyword.inj h).symm
  · cases h

theorem mem_candidates_iff : w ∈ (candidates r c finished).map Prod.fst ↔
    fits c.patternWords finished = true ∧
      ∃ p, c.patternWords[finished.length]? = some p ∧ Offers r p w := by
  unfold candidates
  split
  · rename_i hfits
    rw [and_iff_right hfits]
    cases hp : c.patternWords[finished.length]? with
    | none => simp
    | some p =>
      cases p with
      | keyword k => simp [Offers, PatternWord.name?, eq_comm]
      | placeholder t n =>
        by_cases hn : n = "interface" <;> simp [Offers, PatternWord.name?, hn]
  · rename_i hfits
    simp [hfits]

theorem mem_firstOfEach_iff {l : List (String × String)} :
    w ∈ (firstOfEach l).map Prod.fst ↔ w ∈ l.map Prod.fst := by
  induction l with
  | nil => rfl
  | cons p l ih =>
    have hrest : w ∈ ((firstOfEach l).filter (·.1 ≠ p.1)).map Prod.fst ↔
        w ∈ (firstOfEach l).map Prod.fst ∧ w ≠ p.1 := by
      simp only [List.mem_map, List.mem_filter, decide_eq_true_eq]
      constructor
      · rintro ⟨q, ⟨hq, hne⟩, rfl⟩
        exact ⟨⟨q, hq, rfl⟩, hne⟩
      · rintro ⟨⟨q, hq, rfl⟩, hne⟩
        exact ⟨q, ⟨hq, hne⟩, rfl⟩
    rw [firstOfEach, List.map_cons, List.map_cons, List.mem_cons, List.mem_cons, hrest, ih]
    by_cases hw : w = p.1 <;> simp [hw]

theorem nodup_firstOfEach (l : List (String × String)) :
    ((firstOfEach l).map Prod.fst).Nodup := by
  induction l with
  | nil => exact .nil
  | cons p l ih =>
    rw [firstOfEach, List.map_cons, List.nodup_cons]
    refine ⟨fun h => ?_, ih.sublist (List.filter_sublist.map _)⟩
    obtain ⟨q, hq, heq⟩ := List.mem_map.mp h
    simp [heq] at hq

theorem map_word_complete (h : Typed text finished word) :
    (complete r text).map (·.word) =
      (firstOfEach (((Command.all.filter (r.mode ∈ ·.modes)).flatMap
        (candidates r · finished)).filter fun p => word.toList.isPrefixOf p.1.toList)).map
          Prod.fst := by
  rw [complete, typed_iff.mp h, List.map_map]
  rfl

/-- What is offered: words that extend the one being typed and that some command of the mode has
next. -/
theorem mem_complete_iff (h : Typed text finished word) :
    w ∈ (complete r text).map (·.word) ↔
      word.toList <+: w.toList ∧
        ∃ c : Command, r.mode ∈ c.modes ∧ fits c.patternWords finished = true ∧
          ∃ p, c.patternWords[finished.length]? = some p ∧ Offers r p w := by
  rw [map_word_complete h, mem_firstOfEach_iff]
  constructor
  · intro hw
    obtain ⟨⟨w, hint⟩, hmem, rfl⟩ := List.mem_map.mp hw
    obtain ⟨hoffered, hstart⟩ := List.mem_filter.mp hmem
    obtain ⟨c, hc, hcandidate⟩ := List.mem_flatMap.mp hoffered
    have hmode : r.mode ∈ c.modes := of_decide_eq_true (List.mem_filter.mp hc).2
    exact ⟨List.isPrefixOf_iff_prefix.mp hstart, c, hmode,
      mem_candidates_iff.mp (List.mem_map_of_mem hcandidate)⟩
  · rintro ⟨hstart, c, hmode, hcandidate⟩
    obtain ⟨q, hq, rfl⟩ := List.mem_map.mp (mem_candidates_iff.mpr hcandidate)
    have hc : c ∈ Command.all.filter (r.mode ∈ ·.modes) :=
      List.mem_filter.mpr ⟨c.mem_all, decide_eq_true hmode⟩
    exact List.mem_map_of_mem (List.mem_filter.mpr
      ⟨List.mem_flatMap.mpr ⟨c, hc, hq⟩, List.isPrefixOf_iff_prefix.mpr hstart⟩)

/-! ## Completions and calls -/

/-- Words that fit the start of a command's pattern go on to words that call it. -/
theorem Command.exists_call_of_fits (hfits : fits c.patternWords ws = true) :
    ∃ more args, (∀ w ∈ more, Text.IsWord w.toList) ∧
      Pattern.matchWords c.patternWords (ws ++ more) = some args := by
  obtain ⟨args, hargs⟩ := matchWords_of_fits hfits
  refine ⟨_, args, fun w hw => ?_, hargs⟩
  obtain ⟨p, hp, rfl⟩ := List.mem_map.mp hw
  exact c.isWord_text p (List.mem_of_mem_drop hp)

theorem Offers.blank_free {p : PatternWord} (h : Offers r p w) (hp : p ∈ c.patternWords)
    (hnames : ∀ name ∈ r.interfaceNames, ∀ c ∈ name.toList, Text.isBlank c = false) :
    ∀ c ∈ w.toList, Text.isBlank c = false := by
  rcases h with rfl | ⟨-, hname⟩
  · exact (c.isWord_text _ hp).blank_free
  · exact hnames w hname

/-- Whatever is offered can be continued to a line that calls a command of the mode. -/
theorem exists_call_of_mem_complete
    (hnames : ∀ name ∈ r.interfaceNames, ∀ c ∈ name.toList, Text.isBlank c = false)
    (h : Typed text finished word) (hw : w ∈ (complete r text).map (·.word)) :
    ∃ more c args, (Command.registry files).find? (Text.unwords (finished ++ w :: more)) =
      some (c, args) ∧ r.mode ∈ c.modes := by
  obtain ⟨-, c, hmode, hfits, p, hp, hoffers⟩ := (mem_complete_iff h).mp hw
  have hblank := hoffers.blank_free (List.mem_of_getElem? hp) hnames
  -- A line does not show an empty word, which the name of an interface may be.
  have hshown : fits c.patternWords (finished ++ [w].filter (· ≠ "")) = true := by
    by_cases hempty : w = ""
    · simpa [hempty] using hfits
    · rw [List.filter_cons_of_pos (by simp [hempty]), List.filter_nil]
      exact fits_append_singleton hfits hp hoffers.keyword
  obtain ⟨more, args, hmore, hargs⟩ := c.exists_call_of_fits hshown
  refine ⟨more, c, args, ?_, hmode⟩
  rw [Command.find?_eq, Command.fitting?_eq_some_iff,
    Text.words_unwords_among h.isWord hblank hmore, hargs]

/-- A word of a line that calls a command of the mode is offered after any part of it, if words of
its kind are offered. -/
theorem mem_complete_of_call {line p : String} {k : Nat} {slot : PatternWord}
    (hfind : (Command.registry files).find? line = some (c, args)) (hmode : r.mode ∈ c.modes)
    (hslot : c.patternWords[k]? = some slot) (hw : (Text.words line)[k]? = some w)
    (hkind : (∃ keyword, slot = .keyword keyword) ∨
      slot = .slot "interface" ∧ w ∈ r.interfaceNames)
    (hp : p.toList <+: w.toList) :
    w ∈ (complete r (String.join (((Text.words line).take k).map (· ++ " ")) ++ p)).map
      (·.word) := by
  rw [Command.find?_eq, Command.fitting?_eq_some_iff] at hfind
  obtain ⟨hfits, hkeyword⟩ := fits_of_matchWords hfind k
  have hlength : ((Text.words line).take k).length = k :=
    List.length_take_of_le (List.getElem?_eq_some_iff.mp hw).1.le
  have hword : Text.IsWord w.toList := Text.isWord_of_mem_words (List.mem_of_getElem? hw)
  have htyped : Typed (String.join (((Text.words line).take k).map (· ++ " ")) ++ p)
      ((Text.words line).take k) p :=
    typed_spaced (fun w hw => Text.isWord_of_mem_words (List.mem_of_mem_take hw))
      fun c hc => hword.blank_free c (hp.subset hc)
  have hoffers : Offers r slot w := by
    rcases hkind with ⟨keyword, rfl⟩ | ⟨rfl, hname⟩
    · exact .inl (by rw [hkeyword _ w hslot hw keyword rfl])
    · exact .inr ⟨rfl, hname⟩
  exact (mem_complete_iff htyped).mpr ⟨hp, c, hmode, hfits, slot, by rw [hlength, hslot], hoffers⟩

/-- Completion and dispatch describe the same language. Whatever the text, every completion is
offered once, extends the word that is being typed, and goes on after the finished words to a line
that calls a command of the mode. Conversely, a keyword or the name of an interface in a line that
calls a command of the mode is offered after the words before it and any prefix of it. -/
theorem completions_are_words_of_calls (files : Storage.Files) (r : Router)
    (hnames : ∀ name ∈ r.interfaceNames, ∀ c ∈ name.toList, Text.isBlank c = false) :
    (∀ text, ((complete r text).map (·.word)).Nodup ∧
      ∃ finished word, Typed text finished word ∧ ∀ w ∈ (complete r text).map (·.word),
        word.toList <+: w.toList ∧
          ∃ more c args, (Command.registry files).find? (Text.unwords (finished ++ w :: more)) =
            some (c, args) ∧ r.mode ∈ c.modes) ∧
      ∀ line c args, (Command.registry files).find? line = some (c, args) → r.mode ∈ c.modes →
        ∀ (k : Nat) slot w, c.patternWords[k]? = some slot → (Text.words line)[k]? = some w →
          ((∃ keyword, slot = .keyword keyword) ∨
            slot = .slot "interface" ∧ w ∈ r.interfaceNames) →
          ∀ p : String, p.toList <+: w.toList →
            w ∈ (complete r (String.join (((Text.words line).take k).map (· ++ " ")) ++ p)).map
              (·.word) := by
  refine ⟨fun text => ?_, fun line c args hfind hmode k slot w hslot hw hkind p hp => ?_⟩
  · have htyped : Typed text (typedWords text).1 (typedWords text).2 := typed_iff.mpr rfl
    refine ⟨?_, _, _, htyped, fun w hw => ?_⟩
    · rw [map_word_complete htyped]
      exact nodup_firstOfEach _
    · exact ⟨((mem_complete_iff htyped).mp hw).1, exists_call_of_mem_complete hnames htyped hw⟩
  · exact mem_complete_of_call hfind hmode hslot hw hkind hp

/-- The name of an interface is offered where it was begun, and goes on to a line that calls a
command. -/
theorem completions_are_words_of_calls_of_interface :
    let files : Storage.Files := fun _ => .missing
    let start := Router.new "edge" [.fresh "eth0" ⟨.replicate 6 2⟩, .fresh "lo" ⟨.replicate 6 4⟩]
    let r := start.forceMode .configuration
    "eth0" ∈ (complete r "set interfaces ethernet et").map (·.word) ∧
      ∃ more c args, (Command.registry files).find?
        (Text.unwords (["set", "interfaces", "ethernet"] ++ "eth0" :: more)) = some (c, args) ∧
          r.mode ∈ c.modes := by
  intro files start r
  have hinterfaces : r.interfaceNames = ["eth0", "lo"] := rfl
  have hwords : ∀ name ∈ ["eth0", "lo"], Text.IsWord name.toList := by decide
  have hnames : ∀ name ∈ r.interfaceNames, ∀ c ∈ name.toList, Text.isBlank c = false :=
    fun name hname => (hwords name (hinterfaces ▸ hname)).blank_free
  have hfind : (Command.registry files).find? "set interfaces ethernet eth0 disable" =
      some (.disableInterface, [("interface", "eth0")]) := by decide +kernel
  obtain ⟨hsound, hcomplete⟩ := completions_are_words_of_calls files r hnames
  have hoffered : "eth0" ∈ (complete r "set interfaces ethernet et").map (·.word) := by
    have hmode : r.mode ∈ Command.disableInterface.modes := List.mem_singleton_self _
    have hword : (Text.words "set interfaces ethernet eth0 disable")[3]? = some "eth0" := by
      decide +kernel
    have hname : "eth0" ∈ r.interfaceNames := by simp [hinterfaces]
    have htext : String.join (((Text.words "set interfaces ethernet eth0 disable").take 3).map
        (· ++ " ")) ++ "et" = "set interfaces ethernet et" := by decide +kernel
    have hp : "et".toList <+: "eth0".toList := by decide
    rw [← htext]
    exact hcomplete _ _ _ hfind hmode 3 _ _ rfl hword (.inr ⟨rfl, hname⟩) "et" hp
  obtain ⟨-, finished, word, htyped, hcalls⟩ := hsound "set interfaces ethernet et"
  have hcut : typedWords "set interfaces ethernet et" =
      (["set", "interfaces", "ethernet"], "et") := by decide +kernel
  obtain ⟨rfl, rfl⟩ := Prod.mk.inj ((typed_iff.mp htyped).symm.trans hcut)
  exact ⟨hoffered, (hcalls "eth0" hoffered).2⟩

end RouterConsole.Shell
