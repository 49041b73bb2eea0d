import Mathlib.Data.List.Infix
import RouterConsole.Proofs.Text.ReadBack
import RouterConsole.Shell.Dispatch

/-!
# Which command a line calls

No words fit two commands, so a line that fits a command calls it, wherever the command stands in
the registry. Everything that decides the call is in the words of the line, and the calls that
publish a configuration can be listed.
-/
namespace RouterConsole.Shell

section Exclusive

variable {α β : Type} {f : α → Option β} {l l' : List α}

/-- Of any two members of the list, one has no image. -/
def Exclusive (f : α → Option β) (l : List α) : Prop :=
  l.Pairwise fun a b => f a = none ∨ f b = none

namespace Exclusive

theorem perm (h : Exclusive f l) (hp : l'.Perm l) : Exclusive f l' :=
  (hp.pairwise_iff fun hor => hor.symm).mpr h

/-- The first image is the only one. -/
theorem findSome?_eq_some_iff (h : Exclusive f l) {b : β} :
    l.findSome? f = some b ↔ ∃ a ∈ l, f a = some b := by
  refine ⟨List.exists_of_findSome?_eq_some, ?_⟩
  induction l with
  | nil => exact fun ⟨_, ha, _⟩ => absurd ha List.not_mem_nil
  | cons a l ih =>
    obtain ⟨hfirst, hrest⟩ := List.pairwise_cons.mp h
    rintro ⟨c, hc, hb⟩
    rw [List.findSome?_cons]
    rcases List.mem_cons.mp hc with rfl | hc
    · rw [hb]
    · have hnone : f a = none := (hfirst c hc).resolve_right (by simp [hb])
      rw [hnone]
      exact ih hrest ⟨c, hc, hb⟩

theorem findSome?_perm (h : Exclusive f l) (hp : l'.Perm l) :
    l'.findSome? f = l.findSome? f := by
  ext b
  rw [(h.perm hp).findSome?_eq_some_iff, h.findSome?_eq_some_iff]
  simp only [hp.mem_iff]

theorem length_filter_le (h : Exclusive f l) : (l.filter fun a => (f a).isSome).length ≤ 1 := by
  have hpair := h.filter fun a => (f a).isSome
  have hsome : ∀ a ∈ l.filter fun a => (f a).isSome, f a ≠ none := fun a ha =>
    Option.isSome_iff_ne_none.mp (List.mem_filter.mp ha).2
  match hl : l.filter fun a => (f a).isSome with
  | [] | [_] => simp
  | a :: b :: rest =>
    rw [hl] at hsome hpair
    rcases List.rel_of_pairwise_cons hpair List.mem_cons_self with hn | hn
    · exact absurd hn (hsome a (by simp))
    · exact absurd hn (hsome b (by simp))

end Exclusive

end Exclusive

namespace Pattern

variable {ps qs : List PatternWord} {ws : List String} {args : Arguments}

theorem matchWords_nil_iff : matchWords [] ws = some args ↔ ws = [] ∧ args = [] := by
  cases ws <;> simp [matchWords, eq_comm]

theorem matchWords_keyword_iff {k : String} :
    matchWords (.keyword k :: ps) ws = some args ↔
      ∃ ws', ws = k :: ws' ∧ matchWords ps ws' = some args := by
  cases ws <;> simp [matchWords, and_assoc]

theorem matchWords_placeholder_iff {t n : String} :
    matchWords (.placeholder t n :: ps) ws = some args ↔
      ∃ w ws' args', ws = w :: ws' ∧ matchWords ps ws' = some args' ∧ args = (n, w) :: args' := by
  cases ws with
  | nil => simp [matchWords]
  | cons w ws =>
    simp [matchWords]
    tauto

/-- Whether two patterns differ in their length or in a keyword. -/
def clash : List PatternWord → List PatternWord → Bool
  | [], [] => false
  | .keyword k :: ps, .keyword l :: qs => k != l || clash ps qs
  | _ :: ps, _ :: qs => clash ps qs
  | [], _ :: _ => true
  | _ :: _, [] => true

/-- The first word of a pattern takes one word, which is its keyword if it is one. -/
theorem of_matchWords_cons {p : PatternWord} (h : matchWords (p :: ps) ws = some args) :
    ∃ w ws' args', ws = w :: ws' ∧ matchWords ps ws' = some args' ∧
      ∀ k, p = .keyword k → w = k := by
  cases p with
  | keyword k =>
    obtain ⟨ws', rfl, hrest⟩ := matchWords_keyword_iff.mp h
    exact ⟨k, ws', args, rfl, hrest, fun _ hk => PatternWord.keyword.inj hk⟩
  | placeholder t n =>
    obtain ⟨w, ws', args', rfl, hrest, -⟩ := matchWords_placeholder_iff.mp h
    exact ⟨w, ws', args', rfl, hrest, nofun⟩

/-- Words that fit a pattern do not fit one that it clashes with. -/
theorem clash_of_matchWords {args' : Arguments} (hp : matchWords ps ws = some args)
    (hq : matchWords qs ws = some args') : clash ps qs = false := by
  induction ps generalizing qs ws args args' with
  | nil =>
    obtain ⟨rfl, -⟩ := matchWords_nil_iff.mp hp
    cases qs with
    | nil => rfl
    | cons q qs =>
      obtain ⟨_, _, _, hws, -⟩ := of_matchWords_cons hq
      cases hws
  | cons p ps ih =>
    obtain ⟨w, ws, _, rfl, hps, hkp⟩ := of_matchWords_cons hp
    cases qs with
    | nil => cases hq
    | cons q qs =>
      obtain ⟨_, _, _, hws, hqs, hkq⟩ := of_matchWords_cons hq
      obtain ⟨rfl, rfl⟩ := List.cons.inj hws
      have hrest : clash ps qs = false := ih hps hqs
      cases p with
      | placeholder => exact hrest
      | keyword k =>
        cases q with
        | placeholder => exact hrest
        | keyword l =>
          have hkl : k = l := (hkp k rfl).symm.trans (hkq l rfl)
          rw [clash, hkl, bne_self_eq_false, Bool.false_or]
          exact hrest

end Pattern

namespace Registry

variable {κ : Type} (reg : Registry κ) {line line' : String}

/-- Which command a line calls is settled by its words. -/
theorem called?_congr (h : Text.words line = Text.words line') :
    reg.called? line = reg.called? line' := by
  simp only [called?, find?, resolve?, Pattern.arguments?, h]

/-- Lines with the same words come to the same, in every registry. -/
theorem dispatch_congr (h : Text.words line = Text.words line') (r : Router) :
    (reg.dispatch r line).router = (reg.dispatch r line').router ∧
      (reg.dispatch r line).output = (reg.dispatch r line').output ∧
      (reg.dispatch r line).result = (reg.dispatch r line').result := by
  simp only [dispatch, reg.called?_congr h]
  cases reg.called? line' <;> exact ⟨rfl, rfl, rfl⟩

end Registry

namespace Command

theorem mem_all (c : Command) : c ∈ all := by
  cases c with
  | showConfiguration format => cases format <;> decide
  | route c =>
    obtain ⟨action, via, withDistance⟩ := c
    have h : (⟨action, via, withDistance⟩ : RouteCommand) ∈ RouteCommand.all := by
      cases action <;> cases via <;> cases withDistance <;> decide
    simp only [all, List.mem_append, List.mem_map]
    exact .inl (.inr ⟨_, h, rfl⟩)
  | _ => decide

/-- Any two commands differ in their length or in a keyword. -/
theorem clash_of_ne {c d : Command} (h : c ≠ d) :
    Pattern.clash c.patternWords d.patternWords = true := by
  have hall : ∀ c ∈ all, ∀ d ∈ all, c ≠ d → Pattern.clash c.patternWords d.patternWords := by
    decide +kernel
  exact hall c c.mem_all d d.mem_all h

theorem nodup_all : all.Nodup := by decide +kernel

/-- No words fit two commands. -/
theorem exclusive_matchWords (ws : List String) :
    Exclusive (fun c => Pattern.matchWords c.patternWords ws) all := by
  refine nodup_all.imp fun {c d} hne => ?_
  by_contra hboth
  obtain ⟨hc, hd⟩ := not_or.mp hboth
  obtain ⟨_, hc⟩ := Option.ne_none_iff_exists'.mp hc
  obtain ⟨_, hd⟩ := Option.ne_none_iff_exists'.mp hd
  have hclash := Pattern.clash_of_matchWords hc hd
  rw [clash_of_ne hne] at hclash
  cases hclash

theorem exclusive_calls (ws : List String) :
    Exclusive (fun c => (Pattern.matchWords c.patternWords ws).map (c, ·)) all :=
  (exclusive_matchWords ws).imp fun h => h.imp (by simp) (by simp)

/-- The command whose pattern these words fit, with its arguments. -/
def fitting? (ws : List String) : Option (Command × Arguments) :=
  all.findSome? fun c => (Pattern.matchWords c.patternWords ws).map (c, ·)

/-- The command that these words abbreviate. -/
def abbreviated? (ws : List String) : Option Command :=
  match ws with
  | [] => none
  | ws =>
    match all.filter (·.pattern.abbreviatedBy ws) with
    | [c] => if c.pattern.isLiteral then some c else none
    | _ => none

/-- The call that these words make. -/
def calledBy (ws : List String) : Option (Command × Arguments) :=
  fitting? ws <|> (abbreviated? ws).map (·, [])

theorem find?_eq (files : Storage.Files) (line : String) :
    (registry files).find? line = fitting? (Text.words line) := rfl

theorem resolve?_eq (files : Storage.Files) (line : String) :
    (registry files).resolve? line = abbreviated? (Text.words line) := by
  have hfilter : ∀ ws, (registry files).commands.filter
      (fun c => ((registry files).pattern c).abbreviatedBy ws) =
        all.filter (·.pattern.abbreviatedBy ws) := fun _ => rfl
  unfold Registry.resolve? abbreviated?
  cases Text.words line with
  | nil => rfl
  | cons w ws =>
    simp only [hfilter]
    generalize all.filter (·.pattern.abbreviatedBy (w :: ws)) = fits
    match fits with
    | [] | [_] | _ :: _ :: _ => rfl

theorem called?_eq (files : Storage.Files) (line : String) :
    (registry files).called? line = calledBy (Text.words line) := by
  rw [Registry.called?, find?_eq, resolve?_eq, calledBy]

/-- Which command a line calls is settled by its words alone, whatever the files are. -/
theorem called?_of_words {files : Storage.Files} {line : String} {call : Command × Arguments}
    (h : calledBy (Text.words line) = some call) : (registry files).called? line = some call :=
  (called?_eq files line).trans h

theorem fitting?_eq_some_iff {ws : List String} {c : Command} {args : Arguments} :
    fitting? ws = some (c, args) ↔ Pattern.matchWords c.patternWords ws = some args := by
  rw [fitting?, (exclusive_calls ws).findSome?_eq_some_iff]
  simp [mem_all]

/-- A choice of commands is a single one exactly if that one is all that is chosen. -/
theorem filter_all_eq_singleton_iff {c : Command} {p : Command → Bool} :
    all.filter p = [c] ↔ ∀ d, p d = true ↔ d = c := by
  constructor
  · intro h d
    have hd : d ∈ all.filter p ↔ d ∈ [c] := by rw [h]
    simpa [mem_all] using hd
  · intro h
    have hone : [c].Nodup := List.pairwise_singleton _ c
    have hperm : (all.filter p).Perm [c] :=
      (List.perm_ext_iff_of_nodup (nodup_all.filter p) hone).mpr fun d => by simp [mem_all, h]
    exact List.perm_singleton.mp hperm

/-- Words abbreviate the one command whose keywords they start, if it takes no arguments. -/
theorem abbreviated?_eq_some_iff {ws : List String} {c : Command} : abbreviated? ws = some c ↔
    ws ≠ [] ∧ c.pattern.isLiteral = true ∧ ∀ d, d.pattern.abbreviatedBy ws = true ↔ d = c := by
  rw [← filter_all_eq_singleton_iff]
  cases ws with
  | nil => simp [abbreviated?]
  | cons w ws =>
    simp only [abbreviated?, ne_eq, reduceCtorEq, not_false_eq_true, true_and]
    generalize all.filter (·.pattern.abbreviatedBy (w :: ws)) = fits
    match fits with
    | [] | _ :: _ :: _ => simp
    | [d] =>
      rw [List.singleton_inj, Option.ite_none_right_eq_some, Option.some.injEq]
      constructor
      · rintro ⟨hd, rfl⟩
        exact ⟨hd, rfl⟩
      · rintro ⟨hc, rfl⟩
        exact ⟨hc, rfl⟩

/-- An abbreviated command has no arguments, and the words are prefixes of its keywords. -/
theorem of_abbreviated? {ws : List String} {c : Command} (h : abbreviated? ws = some c) :
    ws ≠ [] ∧ c.pattern.abbreviatedBy ws = true ∧ c.pattern.isLiteral = true := by
  obtain ⟨hne, hliteral, hall⟩ := abbreviated?_eq_some_iff.mp h
  exact ⟨hne, (hall c).mpr rfl, hliteral⟩

/-- A call is of a command that the words fit or abbreviate. -/
theorem of_calledBy {ws : List String} {c : Command} {args : Arguments}
    (h : calledBy ws = some (c, args)) :
    Pattern.matchWords c.patternWords ws = some args ∨ abbreviated? ws = some c ∧ args = [] := by
  unfold calledBy at h
  cases hf : fitting? ws with
  | some call =>
    rw [hf] at h
    exact .inl (fitting?_eq_some_iff.mp (hf.trans h))
  | none =>
    rw [hf] at h
    obtain ⟨d, hd, he⟩ := Option.map_eq_some_iff.mp h
    obtain ⟨rfl, rfl⟩ := Prod.mk.inj he
    exact .inr ⟨hd, rfl⟩

theorem patternWords_eq_keyword_cons (c : Command) :
    ∃ k ps, c.patternWords = .keyword k :: ps := by
  have hall : ∀ c ∈ all, (c.patternWords.head?.bind (·.name?)).isNone ∧ c.patternWords ≠ [] := by
    decide
  obtain ⟨hnone, hne⟩ := hall c c.mem_all
  obtain ⟨p, ps, hp⟩ := List.exists_cons_of_ne_nil hne
  cases p with
  | keyword k => exact ⟨k, ps, hp⟩
  | placeholder t n =>
    rw [hp] at hnone
    cases hnone

theorem isWord_text (c : Command) : ∀ p ∈ c.patternWords, Text.IsWord p.text.toList := by
  have hall : ∀ c ∈ all, ∀ p ∈ c.patternWords, Text.IsWord p.text.toList := by decide +kernel
  exact hall c c.mem_all

/-- The first word of a call starts the keyword that the pattern starts with. -/
theorem keyword_of_calledBy {w : String} {ws : List String} {c : Command} {args : Arguments}
    (h : calledBy (w :: ws) = some (c, args)) :
    ∃ k ps, c.patternWords = .keyword k :: ps ∧ w.toList <+: k.toList := by
  obtain ⟨k, ps, hk⟩ := c.patternWords_eq_keyword_cons
  refine ⟨k, ps, hk, ?_⟩
  rcases of_calledBy h with hmatch | ⟨habbr, -⟩
  · rw [hk, Pattern.matchWords_keyword_iff] at hmatch
    obtain ⟨_, hws, -⟩ := hmatch
    rw [(List.cons.inj hws).1]
  · have hprefix := (of_abbreviated? habbr).2.1
    simp only [Pattern.abbreviatedBy, Pattern.leadingKeywords, pattern, Pattern.ofWords, hk,
      List.takeWhile_cons, PatternWord.name?, Option.isNone_none, if_true, List.map_cons,
      PatternWord.text, List.zip_cons_cons, List.all_cons, Bool.and_eq_true] at hprefix
    exact List.isPrefixOf_iff_prefix.mp hprefix.2.1

/-- No command is called by words of which the first opens a comment. -/
theorem calledBy_of_comment {w : String} {ws : List String} (h : w.toList.head? = some '#') :
    calledBy (w :: ws) = none := by
  cases hcall : calledBy (w :: ws) with
  | none => rfl
  | some call =>
    obtain ⟨k, ps, hk, rest, hrest⟩ := keyword_of_calledBy hcall
    have hall : ∀ c ∈ all, c.patternWords.head?.all fun p => p.text.toList.head? ≠ some '#' := by
      decide
    have hplain := hall call.1 call.1.mem_all
    have hcomment : k.toList.head? = some '#' := by
      rw [← hrest, List.head?_append, h]
      rfl
    simp [hk, PatternWord.text, hcomment] at hplain

/-- A command of one keyword is abbreviated by one word, which starts the keyword. -/
theorem of_abbreviated?_keyword {ws : List String} {c : Command} {k : String}
    (h : abbreviated? ws = some c) (hk : c.pattern.leadingKeywords = [k]) :
    ∃ w, ws = [w] ∧ w.toList ∈ k.toList.inits := by
  obtain ⟨hne, hprefix, -⟩ := of_abbreviated? h
  rw [Pattern.abbreviatedBy, hk, Bool.and_eq_true, decide_eq_true_eq] at hprefix
  obtain ⟨hlength, hwords⟩ := hprefix
  match ws with
  | [] => exact absurd rfl hne
  | _ :: _ :: _ =>
    simp only [List.length_cons, List.length_nil] at hlength
    omega
  | [w] =>
    have hw : w.toList <+: k.toList := by simpa using hwords
    exact ⟨w, rfl, (List.mem_inits _ _).mpr hw⟩

/-- The words that call the command that commits: its keyword, or so much of it that no other
command starts alike. -/
theorem calls_commit_iff {ws : List String} {args : Arguments} :
    calledBy ws = some (.commit, args) ↔
      args = [] ∧ ∃ w ∈ ["com", "comm", "commi", "commit"], ws = [w] := by
  constructor
  · intro h
    rcases of_calledBy h with hmatch | ⟨habbr, rfl⟩
    · simp only [patternWords, Pattern.matchWords_keyword_iff, Pattern.matchWords_nil_iff] at hmatch
      obtain ⟨_, rfl, rfl, rfl⟩ := hmatch
      exact ⟨rfl, "commit", by decide, rfl⟩
    · -- Three of the seven prefixes of the keyword are shared with another command or with all.
      have hinits : ∀ cs ∈ "commit".toList.inits, abbreviated? [String.ofList cs] = some .commit →
          String.ofList cs ∈ ["com", "comm", "commi", "commit"] := by decide +kernel
      have hkeywords : commit.pattern.leadingKeywords = ["commit"] := by decide
      obtain ⟨w, rfl, hw⟩ := of_abbreviated?_keyword habbr hkeywords
      have hmem := hinits _ hw
      rw [String.ofList_toList] at hmem
      exact ⟨rfl, w, hmem habbr, rfl⟩
  · rintro ⟨rfl, w, hw, rfl⟩
    have hall : ∀ w ∈ ["com", "comm", "commi", "commit"],
        calledBy [w] = some (.commit, []) := by decide +kernel
    exact hall w hw

/-- The words that call the command that leaves: its keyword and nothing less, as the command that
leaves by force starts with it too. -/
theorem calls_exit_iff {ws : List String} {args : Arguments} :
    calledBy ws = some (.exit, args) ↔ args = [] ∧ ws = ["exit"] := by
  constructor
  · intro h
    rcases of_calledBy h with hmatch | ⟨habbr, rfl⟩
    · simp only [patternWords, Pattern.matchWords_keyword_iff, Pattern.matchWords_nil_iff] at hmatch
      obtain ⟨_, rfl, rfl, rfl⟩ := hmatch
      exact ⟨rfl, rfl⟩
    · have hinits : ∀ cs ∈ "exit".toList.inits, abbreviated? [String.ofList cs] ≠ some .exit := by
        decide +kernel
      have hkeywords : exit.pattern.leadingKeywords = ["exit"] := by decide
      obtain ⟨w, rfl, hw⟩ := of_abbreviated?_keyword habbr hkeywords
      have hnot := hinits _ hw
      rw [String.ofList_toList] at hnot
      exact absurd habbr hnot
  · rintro ⟨rfl, rfl⟩
    decide +kernel

/-- The words that call the command that loads, which cannot be abbreviated. -/
theorem calls_load_iff {ws : List String} {args : Arguments} :
    calledBy ws = some (.load, args) ↔ ∃ file, args = [("file", file)] ∧ ws = ["load", file] := by
  constructor
  · intro h
    rcases of_calledBy h with hmatch | ⟨habbr, -⟩
    · simp only [patternWords, PatternWord.slot, Pattern.matchWords_keyword_iff,
        Pattern.matchWords_placeholder_iff, Pattern.matchWords_nil_iff] at hmatch
      obtain ⟨_, rfl, file, _, _, rfl, ⟨rfl, rfl⟩, rfl⟩ := hmatch
      exact ⟨file, rfl, rfl⟩
    · exact absurd (of_abbreviated? habbr).2.2 (by decide)
  · rintro ⟨file, rfl, rfl⟩
    have hfit : fitting? ["load", file] = some (.load, [("file", file)]) :=
      fitting?_eq_some_iff.mpr (by simp [patternWords, PatternWord.slot, Pattern.matchWords])
    rw [calledBy, hfit]
    rfl

end Command

end RouterConsole.Shell
