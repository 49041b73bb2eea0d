import RouterConsole.Proofs.Shell.Execution
import RouterConsole.Proofs.Shell.Matching

/-!
# Which calls are ambiguous

No line fits two commands, so it does not matter in which order the commands are registered. A line
may abbreviate several commands and then calls none of them. Once it abbreviates only one, typing
more of that command's words keeps it so: no other command is called on the way, neither because its
pattern fits nor because its keywords start alike.
-/
namespace RouterConsole.Shell

/-- A line fits one command of the prompt at most. So it finds the same command with the same
arguments in whatever order the commands are registered, and a command that it fits is found
whatever shorter or longer patterns stand before it. -/
theorem at_most_one_command_fits (files : Storage.Files) (line : String) :
    let reg := Command.registry files
    (reg.commands.filter fun c => ((reg.pattern c).arguments? line).isSome).length ≤ 1 ∧
      ∀ commands : List Command, commands.Perm reg.commands →
        ({ reg with commands := commands } : Registry Command).find? line = reg.find? line ∧
        ∀ c ∈ commands, ∀ args, (reg.pattern c).arguments? line = some args →
          ({ reg with commands := commands } : Registry Command).find? line = some (c, args) := by
  intro reg
  have hcalls := Command.exclusive_calls (Text.words line)
  refine ⟨(Command.exclusive_matchWords (Text.words line)).length_filter_le,
    fun commands hperm => ⟨hcalls.findSome?_perm hperm, fun c hc args hargs => ?_⟩⟩
  have hcall : ((reg.pattern c).arguments? line).map (c, ·) = some (c, args) := by rw [hargs]; rfl
  exact ((hcalls.perm hperm).findSome?_eq_some_iff).mpr ⟨c, hc, hcall⟩

/-- A route command whose arguments are spelled like its keywords is not taken for a shorter one,
also where the shorter ones stand first. -/
theorem at_most_one_command_fits_of_keyword_arguments :
    let line := "set protocols static route 10.0.0.0/8 next-hop distance distance disable disable"
    let reg := Command.registry fun _ => .missing
    let c : Command := .route ⟨.disable, .nextHop, true⟩
    let args : Arguments :=
      [("destination", "10.0.0.0/8"), ("next_hop", "distance"), ("distance", "disable")]
    (reg.pattern c).arguments? line = some args ∧
      ({ reg with commands := reg.commands.reverse } : Registry Command).find? line =
        some (c, args) := by
  intro line reg c args
  have hargs : (reg.pattern c).arguments? line = some args := by decide +kernel
  have hc : c ∈ reg.commands.reverse := List.mem_reverse.mpr c.mem_all
  exact ⟨hargs, ((at_most_one_command_fits (fun _ => .missing) line).2 reg.commands.reverse
    (List.reverse_perm reg.commands)).2 c hc args hargs⟩

/-! ## Abbreviations -/

/-- Word by word, the first words start the second ones, of which there may be more. -/
structure Begins (ws ks : List String) : Prop where
  length_le : ws.length ≤ ks.length
  starts : ∀ (i : Nat) (w k : String), ws[i]? = some w → ks[i]? = some k → w.toList <+: k.toList

section Begins

variable {us ws ks : List String} {p : Pattern}

theorem Begins.refl (ws : List String) : Begins ws ws where
  length_le := Nat.le_refl _
  starts i w k hw hk := by
    obtain rfl := Option.some.inj (hw.symm.trans hk)
    exact List.prefix_rfl

theorem Begins.trans (h : Begins us ws) (h' : Begins ws ks) : Begins us ks where
  length_le := h.length_le.trans h'.length_le
  starts i u k hu hk := by
    have hi : i < ws.length := (List.getElem?_eq_some_iff.mp hu).1.trans_le h.length_le
    obtain ⟨w, hw⟩ : ∃ w, ws[i]? = some w := ⟨_, List.getElem?_eq_getElem hi⟩
    exact (h.starts i u w hu hw).trans (h'.starts i w k hw hk)

theorem Begins.ne_nil (h : Begins ws ks) (hne : ws ≠ []) : ks ≠ [] := by
  rintro rfl
  exact hne (List.length_eq_zero_iff.mp (Nat.le_zero.mp h.length_le))

theorem begins_iff : Begins ws ks ↔
    (decide (ws.length ≤ ks.length) &&
      (ws.zip ks).all fun (w, k) => w.toList.isPrefixOf k.toList) = true := by
  rw [Bool.and_eq_true, decide_eq_true_eq, List.all_eq_true]
  constructor
  · intro h
    refine ⟨h.length_le, ?_⟩
    rintro ⟨w, k⟩ hpair
    obtain ⟨i, hi⟩ := List.mem_iff_getElem?.mp hpair
    obtain ⟨hw, hk⟩ := List.getElem?_zip_eq_some.mp hi
    exact List.isPrefixOf_iff_prefix.mpr (h.starts i w k hw hk)
  · rintro ⟨hlength, hall⟩
    refine ⟨hlength, fun i w k hw hk => ?_⟩
    have hpair : (w, k) ∈ ws.zip ks :=
      List.mem_of_getElem? (List.getElem?_zip_eq_some.mpr ⟨hw, hk⟩)
    exact List.isPrefixOf_iff_prefix.mp (hall _ hpair)

instance (ws ks : List String) : Decidable (Begins ws ks) := decidable_of_iff _ begins_iff.symm

namespace Pattern

theorem abbreviatedBy_iff : p.abbreviatedBy ws = true ↔ Begins ws p.leadingKeywords :=
  begins_iff.symm

/-- A pattern without placeholders is made of keywords. -/
theorem leadingKeywords_of_isLiteral (h : p.isLiteral = true) :
    p.leadingKeywords = p.words.map (·.text) ∧ ∀ q ∈ p.words, q.name? = none := by
  have hlength : (p.words.takeWhile (·.name?.isNone)).length = p.words.length := by
    simpa [isLiteral, leadingKeywords] using h
  have htake : p.words.takeWhile (·.name?.isNone) = p.words :=
    (List.takeWhile_prefix _).eq_of_length hlength
  have hall : (p.words.takeWhile (·.name?.isNone)).all (·.name?.isNone) = true :=
    List.all_takeWhile
  rw [htake, List.all_eq_true] at hall
  exact ⟨by rw [leadingKeywords, htake], fun q hq => Option.isNone_iff_eq_none.mp (hall q hq)⟩

/-- Words that fit keywords are the keywords. -/
theorem matchWords_of_literal {ps : List PatternWord} (h : ∀ q ∈ ps, q.name? = none)
    {args : Arguments} (hm : matchWords ps ws = some args) : ws = ps.map (·.text) ∧ args = [] := by
  induction ps generalizing ws with
  | nil => exact matchWords_nil_iff.mp hm
  | cons q ps ih =>
    obtain ⟨hq, hrest⟩ := List.forall_mem_cons.mp h
    cases q with
    | placeholder t n => cases hq
    | keyword k =>
      obtain ⟨ws', rfl, hws⟩ := matchWords_keyword_iff.mp hm
      obtain ⟨rfl, rfl⟩ := ih hrest hws
      exact ⟨rfl, rfl⟩

end Pattern

end Begins

namespace Command

variable {c d : Command} {ws ws' : List String} {args : Arguments}

/-- Typing more of a command without arguments does not come to a keyword that a command with
arguments starts with. -/
theorem isLiteral_of_matchWords (hc : c.pattern.isLiteral = true)
    (hws : Begins ws (c.patternWords.map (·.text)))
    (h : Pattern.matchWords d.patternWords ws = some args) : d.pattern.isLiteral = true := by
  have hall : ∀ c ∈ all, ∀ d ∈ all, c.pattern.isLiteral = true → d.pattern.isLiteral = false →
      ∀ p ∈ c.patternWords.head?, ∀ q ∈ d.patternWords.head?,
        ¬q.text.toList <+: p.text.toList := by decide +kernel
  obtain ⟨k, ps, hk⟩ := c.patternWords_eq_keyword_cons
  obtain ⟨l, qs, hl⟩ := d.patternWords_eq_keyword_cons
  rw [hl, Pattern.matchWords_keyword_iff] at h
  obtain ⟨ws', rfl, -⟩ := h
  rw [hk] at hws
  have hstart : l.toList <+: k.toList := hws.starts 0 l k rfl rfl
  by_contra hd
  exact hall c c.mem_all d d.mem_all hc (Bool.eq_false_iff.mpr hd) (.keyword k) (by rw [hk]; rfl)
    (.keyword l) (by rw [hl]; rfl) hstart

/-- An abbreviation that is typed out calls the same command, by its whole pattern or by a longer
abbreviation. -/
theorem abbreviated?_of_begins (h : abbreviated? ws = some c) (hmore : Begins ws ws')
    (hfew : Begins ws' (c.patternWords.map (·.text))) :
    abbreviated? ws' = some c ∧ ∀ call, fitting? ws' = some call → call = (c, []) := by
  obtain ⟨hne, hliteral, honly⟩ := abbreviated?_eq_some_iff.mp h
  have hkeywords : c.pattern.leadingKeywords = c.patternWords.map (·.text) :=
    (Pattern.leadingKeywords_of_isLiteral hliteral).1
  have honly' : ∀ d, d.pattern.abbreviatedBy ws' = true ↔ d = c := by
    intro d
    constructor
    · intro hd
      have hstart : Begins ws d.pattern.leadingKeywords :=
        hmore.trans (Pattern.abbreviatedBy_iff.mp hd)
      exact (honly d).mp (Pattern.abbreviatedBy_iff.mpr hstart)
    · rintro rfl
      exact Pattern.abbreviatedBy_iff.mpr (hkeywords ▸ hfew)
  refine ⟨abbreviated?_eq_some_iff.mpr ⟨hmore.ne_nil hne, hliteral, honly'⟩, ?_⟩
  rintro ⟨d, args⟩ hcall
  have hmatch := fitting?_eq_some_iff.mp hcall
  have hd := isLiteral_of_matchWords hliteral hfew hmatch
  obtain ⟨hleading, hplain⟩ := Pattern.leadingKeywords_of_isLiteral hd
  -- All words are keywords, so they abbreviate the command that they fit.
  obtain ⟨hws, rfl⟩ := Pattern.matchWords_of_literal hplain hmatch
  have hself : Begins ws' d.pattern.leadingKeywords := by
    rw [hleading, ← hws]
    exact .refl ws'
  obtain rfl := (honly' d).mp (Pattern.abbreviatedBy_iff.mpr hself)
  rfl

end Command

/-- A line that abbreviates a command, and a line with at least as many words that has more of each
of the command's words: the second calls the same command, without arguments, because it fits or
because it abbreviates it. The command has no placeholders, and the first line starts the keywords
of no other one. -/
theorem abbreviations_are_stable (files : Storage.Files) {line line' : String} {c : Command}
    (h : (Command.registry files).resolve? line = some c)
    (hmore : Begins (Text.words line) (Text.words line'))
    (hfew : Begins (Text.words line') (c.pattern.words.map (·.text))) :
    ((Command.registry files).find? line' = some (c, []) ∨
        (Command.registry files).find? line' = none ∧
          (Command.registry files).resolve? line' = some c) ∧
      (∀ r, (dispatch files r line').router = (c.execute files [] r).router ∧
        (dispatch files r line').output = ((Command.registry files).invoke r c []).output ∧
        (dispatch files r line').result = ((Command.registry files).invoke r c []).result) ∧
      (∀ p ∈ c.pattern.words, p.name? = none) ∧
      ∀ d ∈ (Command.registry files).commands, d ≠ c →
        ¬Begins (Text.words line) d.pattern.leadingKeywords := by
  rw [Command.resolve?_eq] at h
  obtain ⟨habbreviated, hfits⟩ := Command.abbreviated?_of_begins h hmore hfew
  obtain ⟨-, hliteral, honly⟩ := Command.abbreviated?_eq_some_iff.mp h
  have hcall : (Command.registry files).find? line' = some (c, []) ∨
      (Command.registry files).find? line' = none ∧
        (Command.registry files).resolve? line' = some c := by
    rw [Command.find?_eq, Command.resolve?_eq]
    cases hfit : Command.fitting? (Text.words line') with
    | some call => exact .inl (by rw [hfits call hfit])
    | none => exact .inr ⟨rfl, habbreviated⟩
  have hcalled : (Command.registry files).called? line' = some (c, []) := by
    rcases hcall with hfind | ⟨hnone, hresolve⟩
    · exact called?_of_find? hfind
    · rw [Registry.called?, hnone, hresolve]
      rfl
  exact ⟨hcall, fun r => dispatch_of_called hcalled,
    (Pattern.leadingKeywords_of_isLiteral hliteral).2, fun d _ hne hstart =>
      hne ((honly d).mp (Pattern.abbreviatedBy_iff.mpr hstart))⟩

/-- The shortest abbreviation of the command that shows the configuration as commands, and one that
is typed out but for its last word. -/
theorem abbreviations_are_stable_of_last_word :
    let files : Storage.Files := fun _ => .missing
    let r := Router.new "edge" [.fresh "eth0" ⟨.replicate 6 2⟩]
    let c : Command := .showConfiguration .commands
    let line' := "show  configuration comm"
    (Command.registry files).resolve? "sh c c" = some c ∧
      Begins (Text.words "sh c c") (Text.words line') ∧
      Begins (Text.words line') (c.pattern.words.map (·.text)) ∧
      (dispatch files r line').router = r ∧
      (dispatch files r line').output = "/* No configuration */\n" := by
  intro files r c line'
  have hresolve : (Command.registry files).resolve? "sh c c" = some c := by decide +kernel
  have hmore : Begins (Text.words "sh c c") (Text.words line') := by decide +kernel
  have hfew : Begins (Text.words line') (c.pattern.words.map (·.text)) := by decide +kernel
  obtain ⟨hrouter, houtput, -⟩ := (abbreviations_are_stable files hresolve hmore hfew).2.1 r
  have hwritten : ((Command.registry files).invoke r c []).output = "/* No configuration */\n" := by
    decide +kernel
  exact ⟨hresolve, hmore, hfew, hrouter, houtput.trans hwritten⟩

end RouterConsole.Shell
