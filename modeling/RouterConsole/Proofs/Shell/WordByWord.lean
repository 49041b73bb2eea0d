import RouterConsole.Proofs.Shell.Expression

/-!
# Fitting a pattern word by word

A line fits a pattern if it has as many words and the keywords in their places; each placeholder
then takes the word in its own place. How the words are spaced does not matter, so that values
written into a pattern are read back from it, and lines with the same words come to the same in
every registry.
-/
namespace RouterConsole.Shell

open RouterConsole.Text (Gaps IsWord spaced)

namespace PatternWord

@[simp] theorem name?_ofString (w : String) : (ofString w).name? = placeholderName? w := by
  rw [ofString]
  cases placeholderName? w <;> rfl

@[simp] theorem text_ofString (w : String) : (ofString w).text = w := by
  rw [ofString]
  cases placeholderName? w <;> rfl

theorem ofString_eq_keyword_iff {w k : String} :
    ofString w = .keyword k ↔ placeholderName? w = none ∧ w = k := by
  rw [ofString]
  cases placeholderName? w <;> simp

/-- The word that a line has for a word of a pattern, given the values of the placeholders. -/
def filled (values : String → String) (p : PatternWord) : String :=
  p.name?.elim p.text values

end PatternWord

namespace Pattern

variable {ps : List PatternWord} {ws : List String} {args : Arguments}

/-! ## Places -/

/-- Words fit a pattern if there are as many and the keywords stand in their places. -/
theorem isSome_matchWords_iff : (matchWords ps ws).isSome = true ↔
    ws.length = ps.length ∧ ∀ (i : Nat) k, ps[i]? = some (.keyword k) → ws[i]? = some k := by
  induction ps generalizing ws with
  | nil => cases ws <;> simp [matchWords]
  | cons p ps ih =>
    cases ws with
    | nil => simp [matchWords]
    | cons w ws =>
      have hplaces : (∀ (i : Nat) k, (p :: ps)[i]? = some (.keyword k) → (w :: ws)[i]? = some k) ↔
          (∀ k, p = .keyword k → w = k) ∧
            ∀ (i : Nat) k, ps[i]? = some (.keyword k) → ws[i]? = some k := by
        constructor
        · intro h
          exact ⟨fun k hk => by simpa using h 0 k (by simp [hk]), fun i k hk => h (i + 1) k hk⟩
        · rintro ⟨hfirst, hrest⟩ (_ | i) k hk
          · simpa using hfirst k (by simpa using hk)
          · exact hrest i k hk
      rw [hplaces, List.length_cons, List.length_cons, Nat.add_right_cancel_iff]
      cases p with
      | keyword k =>
        rw [matchWords]
        by_cases hw : w = k
        · simp [hw, ih]
        · simp [hw]
      | placeholder t n => simp [matchWords, ih]

/-- The arguments of a line have the names of the placeholders, in order. -/
theorem names_of_matchWords (h : matchWords ps ws = some args) :
    args.map Prod.fst = ps.filterMap (·.name?) := by
  induction ps generalizing ws args with
  | nil =>
    obtain ⟨-, rfl⟩ := matchWords_nil_iff.mp h
    rfl
  | cons p ps ih =>
    cases p with
    | keyword k =>
      obtain ⟨ws, -, hrest⟩ := matchWords_keyword_iff.mp h
      exact ih hrest
    | placeholder t n =>
      obtain ⟨w, ws, args, -, hrest, rfl⟩ := matchWords_placeholder_iff.mp h
      exact congrArg (n :: ·) (ih hrest)

/-- Each placeholder takes the word in its place, if no other has its name. -/
theorem lookup_of_matchWords (hnodup : (ps.filterMap (·.name?)).Nodup)
    (h : matchWords ps ws = some args) {i : Nat} {p : PatternWord} {name : String}
    (hp : ps[i]? = some p) (hname : p.name? = some name) : args.lookup name = ws[i]? := by
  induction ps generalizing ws args i with
  | nil => simp at hp
  | cons q ps ih =>
    cases q with
    | keyword k =>
      obtain ⟨ws, rfl, hrest⟩ := matchWords_keyword_iff.mp h
      cases i with
      | zero =>
        obtain rfl : .keyword k = p := by simpa using hp
        cases hname
      | succ i => exact ih hnodup hrest hp
    | placeholder t n =>
      obtain ⟨w, ws, args, rfl, hrest, rfl⟩ := matchWords_placeholder_iff.mp h
      obtain ⟨hnew, hnodup⟩ := List.nodup_cons.mp hnodup
      cases i with
      | zero =>
        obtain rfl : .placeholder t n = p := by simpa using hp
        obtain rfl := Option.some.inj hname
        simp
      | succ i =>
        have hmem : name ∈ ps.filterMap (·.name?) :=
          List.mem_filterMap.mpr ⟨p, List.mem_of_getElem? (by simpa using hp), hname⟩
        have hne : (name == n) = false := beq_eq_false_iff_ne.mpr fun he => hnew (he ▸ hmem)
        rw [List.lookup_cons, hne, List.getElem?_cons_succ]
        exact ih hnodup hrest hp

/-- Values that are written into a pattern are read back. -/
theorem matchWords_filled (values : String → String) (ps : List PatternWord) :
    matchWords ps (ps.map (·.filled values)) =
      some ((ps.filterMap (·.name?)).map fun name => (name, values name)) := by
  induction ps with
  | nil => rfl
  | cons p ps ih =>
    cases p with
    | keyword k =>
      exact (if_pos rfl).trans ih
    | placeholder t n =>
      rw [List.map_cons, matchWords, ih]
      rfl

theorem getElem?_ofText (text : String) (i : Nat) :
    (ofText text).words[i]? = (Text.words text)[i]?.map .ofString := List.getElem?_map

theorem names_ofText (text : String) :
    (ofText text).names = (Text.words text).filterMap placeholderName? := by
  simp only [names, ofText, List.filterMap_map, Function.comp_def, PatternWord.name?_ofString]

theorem isWord_of_keyword_mem_ofText {text k : String} (h : .keyword k ∈ (ofText text).words) :
    IsWord k.toList := by
  obtain ⟨w, hw, hk⟩ := List.mem_map.mp h
  obtain ⟨-, rfl⟩ := PatternWord.ofString_eq_keyword_iff.mp hk
  exact Text.isWord_of_mem_words hw

theorem isWord_filled {text : String} {values : String → String}
    (hvalues : ∀ name ∈ (ofText text).names, IsWord (values name).toList) :
    ∀ w ∈ (ofText text).words.map (·.filled values), IsWord w.toList := by
  intro w hw
  obtain ⟨p, hp, rfl⟩ := List.mem_map.mp hw
  obtain ⟨v, hv, rfl⟩ := List.mem_map.mp hp
  rw [PatternWord.filled, PatternWord.name?_ofString, PatternWord.text_ofString]
  cases hname : placeholderName? v with
  | none => exact Text.isWord_of_mem_words hv
  | some name =>
    exact hvalues name (names_ofText text ▸ List.mem_filterMap.mpr ⟨v, hv, hname⟩)

section OfText

variable {text line : String} {args : Arguments}

theorem isSome_arguments?_ofText_iff : ((ofText text).arguments? line).isSome = true ↔
    (Text.words line).length = (Text.words text).length ∧
      ∀ (i : Nat) w, (Text.words text)[i]? = some w → placeholderName? w = none →
        (Text.words line)[i]? = some w := by
  rw [arguments?, isSome_matchWords_iff, ofText, List.length_map]
  refine and_congr_right fun _ => ⟨fun h i w hw hplain => ?_, fun h i k hk => ?_⟩
  · have hkeyword : PatternWord.ofString w = .keyword w :=
      PatternWord.ofString_eq_keyword_iff.mpr ⟨hplain, rfl⟩
    exact h i w (by rw [List.getElem?_map, hw, Option.map_some, hkeyword])
  · rw [List.getElem?_map] at hk
    obtain ⟨w, hw, hkeyword⟩ := Option.map_eq_some_iff.mp hk
    obtain ⟨hplain, rfl⟩ := PatternWord.ofString_eq_keyword_iff.mp hkeyword
    exact h i w hw hplain

/-- A placeholder has the word in its place. -/
theorem lookup_of_arguments?_ofText (husable : (ofText text).isUsable = true)
    (hargs : (ofText text).arguments? line = some args) {i : Nat} {w name : String}
    (hw : (Text.words text)[i]? = some w) (hname : placeholderName? w = some name) :
    args.lookup name = (Text.words line)[i]? := by
  have hnodup : (ofText text).names.Nodup := of_decide_eq_true husable
  have hplace : (ofText text).words[i]? = some (.ofString w) := by
    rw [getElem?_ofText, hw, Option.map_some]
  exact lookup_of_matchWords hnodup hargs hplace ((PatternWord.name?_ofString w).trans hname)

/-- Words in place of the placeholders are read back, whatever blanks are between them. -/
theorem arguments?_spaced {values : String → String}
    (hvalues : ∀ name ∈ (ofText text).names, IsWord (values name).toList) {gap : Nat → String}
    {trail : String} (hgaps : Gaps gap trail) :
    (ofText text).arguments? (spaced gap trail ((ofText text).words.map (·.filled values))) =
      some ((ofText text).names.map fun name => (name, values name)) := by
  rw [arguments?, Text.words_spaced hgaps (isWord_filled hvalues), matchWords_filled]
  rfl

theorem matchAll_expression_ofText : Item.matchAll (ofText text).expression line.toList =
    (ofText text).arguments? line :=
  matchAll_expression (fun _ => isWord_of_keyword_mem_ofText) line

end OfText

end Pattern

/-- Every command of the prompt has a pattern that is written as a text and can be used. -/
theorem Command.exists_text (c : Command) :
    ∃ text, c.pattern = .ofText text ∧ (Pattern.ofText text).isUsable = true := by
  have hwritten : ∀ c ∈ all, ∀ p ∈ c.patternWords, .ofString p.text = p := by decide +kernel
  have hnodup : ∀ c ∈ all, c.pattern.isUsable = true := by decide +kernel
  have hread : Text.words (Text.unwords (c.patternWords.map (·.text))) =
      c.patternWords.map (·.text) := by
    refine Text.words_unwords fun w hw => ?_
    obtain ⟨p, hp, rfl⟩ := List.mem_map.mp hw
    exact c.isWord_text p hp
  have hpattern : c.pattern = .ofText c.pattern.text := by
    have hwords : (c.patternWords.map (·.text)).map .ofString = c.patternWords := by
      rw [List.map_map]
      exact (List.map_congr_left (hwritten c c.mem_all)).trans (List.map_id _)
    rw [pattern, Pattern.ofWords, Pattern.ofText, hread, hwords]
  exact ⟨c.pattern.text, hpattern, hpattern ▸ hnodup c c.mem_all⟩

/-- Patterns are fitted word by word. A line fits the pattern that a text describes exactly if it
has as many words as the text and, in their places, those of its words that are no placeholders; and
then the arguments are the placeholders in order, each with the word in its place. The expression
that the pattern compiles to matches the same lines and keeps the same arguments. Words that are
written in place of the placeholders, with blanks of any kind around and between all words, are read
back. So in a registry of such patterns a line finds the first command whose expression matches it,
and lines with the same words come to the same result, output and router. -/
theorem patterns_fit_word_by_word :
    (∀ text, (Pattern.ofText text).isUsable = true →
      (∀ line,
        (((Pattern.ofText text).arguments? line).isSome = true ↔
          (Text.words line).length = (Text.words text).length ∧
            ∀ (i : Nat) w, (Text.words text)[i]? = some w → placeholderName? w = none →
              (Text.words line)[i]? = some w) ∧
        (∀ args, (Pattern.ofText text).arguments? line = some args →
          args.map Prod.fst = (Text.words text).filterMap placeholderName? ∧
            ∀ (i : Nat) w name, (Text.words text)[i]? = some w → placeholderName? w = some name →
              args.lookup name = (Text.words line)[i]?) ∧
        Item.matchAll (Pattern.ofText text).expression line.toList =
          (Pattern.ofText text).arguments? line) ∧
      ∀ values : String → String,
        (∀ name ∈ (Pattern.ofText text).names, IsWord (values name).toList) →
        ∀ gap trail, Gaps gap trail →
          (Pattern.ofText text).arguments?
              (spaced gap trail ((Pattern.ofText text).words.map (·.filled values))) =
            some ((Pattern.ofText text).names.map fun name => (name, values name))) ∧
    ∀ (κ : Type) (reg : Registry κ),
      (∀ c ∈ reg.commands,
        ∃ text, reg.pattern c = .ofText text ∧ (Pattern.ofText text).isUsable = true) →
      (∀ line, reg.find? line = reg.commands.findSome? fun c =>
        (Item.matchAll (reg.pattern c).expression line.toList).map (c, ·)) ∧
      ∀ line line', Text.words line = Text.words line' → ∀ r,
        (reg.dispatch r line).result = (reg.dispatch r line').result ∧
          (reg.dispatch r line).output = (reg.dispatch r line').output ∧
          (reg.dispatch r line).router = (reg.dispatch r line').router := by
  refine ⟨fun text husable => ⟨fun line => ⟨?_, fun args hargs => ⟨?_, ?_⟩, ?_⟩, ?_⟩,
    fun κ reg hreg => ⟨fun line => ?_, fun line line' hwords r => ?_⟩⟩
  · exact Pattern.isSome_arguments?_ofText_iff
  · exact (Pattern.names_of_matchWords hargs).trans (Pattern.names_ofText text)
  · exact fun i w name => Pattern.lookup_of_arguments?_ofText husable hargs
  · exact Pattern.matchAll_expression_ofText
  · exact fun values hvalues gap trail => Pattern.arguments?_spaced hvalues
  · rw [Registry.find?, ← List.head?_filterMap, ← List.head?_filterMap]
    refine congrArg List.head? (List.filterMap_congr fun c hc => ?_)
    obtain ⟨text, htext, -⟩ := hreg c hc
    rw [htext, Pattern.matchAll_expression_ofText]
  · obtain ⟨hrouter, houtput, hresult⟩ := reg.dispatch_congr hwords r
    exact ⟨hresult, houtput, hrouter⟩

/-- A keyword that would mean something else in an expression, a value that is spelled like a
placeholder, and blanks of several kinds, with line feeds at both ends. -/
theorem patterns_fit_word_by_word_of_line_feeds :
    let text := "trace <next-hop> .* <file>"
    let line := "\n trace\t10.0.0.1\u00a0\u2003.*\r\n<file>\n"
    let args := [("next_hop", "10.0.0.1"), ("file", "<file>")]
    let files : Storage.Files := fun _ => .missing
    let r := Router.new "edge" [.fresh "eth0" ⟨.replicate 6 2⟩]
    (Pattern.ofText text).arguments? line = some args ∧
      Item.matchAll (Pattern.ofText text).expression line.toList = some args ∧
      (dispatch files r "\u2003show\n\nconfiguration\n").output =
        (dispatch files r "show configuration").output := by
  intro text line args files r
  have husable : (Pattern.ofText text).isUsable = true := by decide +kernel
  obtain ⟨htexts, hregistries⟩ := patterns_fit_word_by_word
  obtain ⟨hlines, hfilled⟩ := htexts text husable
  let values (name : String) : String := if name = "file" then "<file>" else "10.0.0.1"
  let gap (i : Nat) : String := ["\n ", "\t", "\u00a0\u2003"].getD i "\r\n"
  have hgaps : Gaps gap "\n" := by
    have hlast : "\r\n".toList.all Text.isBlank = true ∧ "\r\n" ≠ "" := by decide
    refine ⟨fun i => ?_, fun i => ?_, by decide⟩
    · rcases i with _ | _ | _ | i
      · decide
      · decide
      · decide
      · exact hlast.1
    · rcases i with _ | _ | i
      · decide
      · decide
      · exact hlast.2
  have hnames : (Pattern.ofText text).names = ["next_hop", "file"] := by decide +kernel
  have hvalues : ∀ name ∈ (Pattern.ofText text).names, IsWord (values name).toList := by
    rw [hnames]
    decide
  have hline : spaced gap "\n" ((Pattern.ofText text).words.map (·.filled values)) = line := by
    decide +kernel
  have hargs : (Pattern.ofText text).arguments? line = some args := by
    rw [← hline, hfilled values hvalues gap "\n" hgaps, hnames]
    decide
  have hwords : Text.words "\u2003show\n\nconfiguration\n" = Text.words "show configuration" := by
    decide +kernel
  obtain ⟨-, hsame⟩ := hregistries Command (Command.registry files) fun c _ => c.exists_text
  exact ⟨hargs, (hlines line).2.2.trans hargs, (hsame _ _ hwords r).2.1⟩

end RouterConsole.Shell
