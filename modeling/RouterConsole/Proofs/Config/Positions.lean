import RouterConsole.Proofs.Config.Refusals

/-!
# Where tokens stand

A token gives the line and the column at which its characters stand in the text. A word that is cut
off from its brace keeps its column and the brace gets the one behind the word, so this is also true
of what blocks make of a text. Every fault is noticed at such a token and a directive stands for
one; therefore a refused load always points into its text.
-/
namespace RouterConsole.Config

/-- The token's characters stand in the text at its line, which is one that says something, from its
column on. -/
def Token.StandsIn (text : String) (t : Token) : Prop :=
  t.value ≠ "" ∧ ∃ (i : Nat) (l : String), t.line = i + 1 ∧ (Text.lines text)[i]? = some l ∧
    isSignificant l.toList = true ∧
    ∃ before after, t.column = before.length + 1 ∧ l.toList = before ++ t.value.toList ++ after

variable {text : String} {t : Token}

/-! ## Tokens of lines -/

theorem place_of_mem_scanLine {line column : Nat} {cs : List Char}
    (h : t ∈ scanLine line column cs) : t.line = line ∧ ∃ before after,
      t.column = column + before.length ∧ cs = before ++ t.value.toList ++ after := by
  induction column, cs using scanLine.induct with
  | case1 column =>
    rw [scanLine_nil] at h
    cases h
  | case2 column c cs hc ih =>
    rw [scanLine_blank hc] at h
    obtain ⟨hline, before, after, hcolumn, hcs⟩ := ih h
    refine ⟨hline, c :: before, after, ?_, by rw [hcs]; rfl⟩
    rw [hcolumn, List.length_cons]
    omega
  | case3 column c cs hc word ih =>
    rw [scanLine_word (Bool.eq_false_iff.mpr hc)] at h
    have hword : c :: cs = word ++ cs.dropWhile (!Text.isBlank ·) :=
      congrArg (c :: ·) List.takeWhile_append_dropWhile.symm
    rcases List.mem_cons.mp h with rfl | h
    · exact ⟨rfl, [], _, rfl, by rw [hword, String.toList_ofList]; rfl⟩
    · obtain ⟨hline, before, after, hcolumn, hcs⟩ := ih h
      refine ⟨hline, word ++ before, after, ?_, ?_⟩
      · rw [hcolumn, List.length_append, Nat.add_assoc]
      · rw [hword, hcs]
        simp only [List.append_assoc]

theorem standsIn_of_mem_tokenize {l : List Token} (hl : l ∈ tokenize text) (ht : t ∈ l) :
    t.StandsIn text := by
  have hword := isWord_of_mem_tokenize hl ht
  obtain ⟨i, cs, hcs, hsignificant, rfl⟩ := mem_scanLines_iff.mp hl
  obtain ⟨hline, before, after, hcolumn, hplace⟩ := place_of_mem_scanLine ht
  refine ⟨fun hempty => hword.1 (by rw [hempty]; rfl), i, String.ofList cs, ?_, ?_, ?_, before,
    after, ?_, ?_⟩
  · rw [hline, Nat.add_comm]
  · rw [Text.lines, List.getElem?_map, hcs]
    rfl
  · rwa [String.toList_ofList]
  · rw [hcolumn, Nat.add_comm]
  · rw [String.toList_ofList, hplace]

/-- A word keeps its place without the brace behind it, and the brace stands right behind it. -/
theorem keptByCut_standsIn (text : String) : KeptByCut (Token.StandsIn text) where
  word t w hvalue hne h := by
    obtain ⟨-, i, l, hline, hl, hsignificant, before, after, hcolumn, hplace⟩ := h
    refine ⟨?_, i, l, hline, hl, hsignificant, before, '\x7b' :: after, hcolumn, ?_⟩
    · intro hempty
      exact hne (by simpa using congrArg String.toList hempty)
    · rw [hplace, hvalue, String.toList_ofList]
      simp
  brace t w hvalue h := by
    obtain ⟨-, i, l, hline, hl, hsignificant, before, after, hcolumn, hplace⟩ := h
    refine ⟨(by decide : "\x7b" ≠ ""), i, l, hline, hl, hsignificant, before ++ w, after, ?_, ?_⟩
    · simp only [hcolumn, List.length_append]
      omega
    · rw [hplace, hvalue]
      simp

/-! ## Directives and failures -/

variable {format : Format} {names : List String}

theorem readPaths_standsIn (format : Format) (text : String) :
    (readPaths format text).Each (Token.StandsIn text) :=
  readPaths_each (keptByCut_standsIn text) (fun _ hl _ ht => standsIn_of_mem_tokenize hl ht) format

theorem parse_failsAt (format : Format) (names : List String) (text : String) :
    FailsAt (Token.StandsIn text) (parse format names text) := by
  obtain ⟨hpaths, hfault⟩ := readPaths_standsIn format text
  have hne := (readPaths_sound format text).nonempty
  rw [parse_eq_bind]
  refine .bind (.mapM fun path hp => ?_) fun ds _ => ?_
  · exact interpret_failsAt (fun hn => hne (hn ▸ hp)) (hpaths path hp)
  · cases hf : (readPaths format text).fault with
    | some e => exact .error (hfault e hf)
    | none => exact .ok _

theorem standsIn_of_directive {ds : List Directive} (h : parse format names text = .ok ds)
    {d : Directive} (hd : d ∈ ds) : d.token.StandsIn text := by
  obtain ⟨path, hpath, hasks⟩ := (parse_ends_read format names text).of_ok h d hd
  exact (readPaths_standsIn format text).paths path hpath _ hasks.token_mem

/-- What a load refuses stands in its text, whether the reading or the router refuses it. -/
theorem noticedAt_of_load (r : Router) (format? : Option Format) {e : Error}
    (h : (load r text format?).result = .error (.configuration e)) :
    e.NoticedAt (Token.StandsIn text) := by
  by_cases hr : r.mode = .configuration ∧ r.dirty = true
  · cases (load_of_pending hr).2.symm.trans h
  · rcases load_result_cases hr text format? with
      ⟨e', hp, he⟩ | ⟨ds, -, -, report, hreport⟩ | ⟨ds, a, problem, token, hp, ⟨i, hmem⟩, he⟩
    · cases he.symm.trans h
      exact parse_failsAt _ _ text e hp
    · cases hreport.symm.trans h
    · cases he.symm.trans h
      exact noticedAt_at _ (standsIn_of_directive hp hmem)

/-- Every position is one at which the token's own characters stand in the text: that of every
refused load, those on the paths that either notation makes of the text, and those of directives. -/
theorem positions_point_at_text (r : Router) (text : String) :
    (∀ format? e, (load r text format?).result = .error (.configuration e) →
      ∃ t, e.token = some t ∧ t.StandsIn text) ∧
    ∀ format, (∀ path ∈ (readPaths format text).paths, ∀ t ∈ path, t.StandsIn text) ∧
      ∀ names ds, parse format names text = .ok ds → ∀ d ∈ ds, d.token.StandsIn text :=
  ⟨fun format? _ he => noticedAt_of_load r format? he, fun format =>
    ⟨(readPaths_standsIn format text).paths, fun _ _ hp _ hd => standsIn_of_directive hp hd⟩⟩

/-- A block that is never closed is refused at its brace, which ends the first line. -/
theorem positions_point_at_text_of_open_block :
    let r := Router.new "edge" [.fresh "eth0" ⟨.replicate 6 2⟩]
    let text := "interfaces ethernet eth0\x7b\n"
    let brace : Token := ⟨"\x7b", 1, 25⟩
    (load r text none).result = .error (.configuration (Fault.missingClose.at brace)) ∧
      brace.StandsIn text := by
  intro r text brace
  have hr : ¬(r.mode = .configuration ∧ r.dirty = true) := by decide
  have hp : parse ((none : Option Format).getD (detectFormat text)) r.interfaceNames text =
      .error (Fault.missingClose.at brace) := by
    have hread : readPaths (detectFormat text) text = ⟨[], some (Fault.missingClose.at brace)⟩ := by
      decide +kernel
    rw [parse, Option.getD_none, hread]
    rfl
  have hresult := load_result_of_parse_error hr hp
  obtain ⟨t, ht, hstands⟩ := (positions_point_at_text r text).1 none _ hresult
  obtain rfl := Option.some.inj ht
  exact ⟨hresult, hstands⟩

end RouterConsole.Config
