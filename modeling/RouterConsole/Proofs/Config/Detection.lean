import RouterConsole.Proofs.Config.OpenedBlocks
import RouterConsole.Proofs.ValueChars

/-!
# The notation of an accepted text

No word of a path of the grammar holds a brace. So an accepted line of commands has none either, and
in nested blocks it would be a path that starts with `set`, which is none of the grammar. Therefore
no text that says something is accepted in both notations, and a text that is accepted as commands,
or as blocks of which it opens one, shows its notation.
-/
namespace RouterConsole.Config

variable {names ws : List String} {path : List Token} {text : String} {d? : Option Directive}

/-! ## Paths without braces -/

theorem OptionWords.braceless {options : List RouteOption} (h : OptionWords ws options) :
    ∀ w ∈ ws, Braceless w := by
  induction h with
  | nil => exact nofun
  | disable _ ih => exact List.forall_mem_cons.mpr ⟨by decide, ih⟩
  | distance hd _ ih =>
    simp only [List.forall_mem_cons]
    exact ⟨by decide, Value.braceless_of_distance hd, ih⟩

theorem TargetWords.braceless {target : RouteTarget} (h : TargetWords names ws target)
    (hn : ∀ n ∈ names, Braceless n) : ∀ w ∈ ws, Braceless w := by
  cases h with
  | nextHop hg =>
    simp only [List.forall_mem_cons]
    exact ⟨by decide, Value.braceless_of_gateway hg, nofun⟩
  | interface hname =>
    simp only [List.forall_mem_cons]
    exact ⟨by decide, hn _ hname, nofun⟩

/-- No word of a path of the grammar holds a brace, unless the name of an interface does. -/
theorem PathAsks.braceless (h : PathAsks names path d?) (hn : ∀ n ∈ names, Braceless n) :
    ∀ w ∈ values path, Braceless w := by
  cases h with
  | dhcp hv hname =>
    rw [hv]
    simp only [List.forall_mem_cons]
    exact ⟨by decide, by decide, hn _ hname, by decide, by decide, nofun⟩
  | address hv hname ha =>
    rw [values_append, hv]
    simp only [List.forall_mem_append, List.forall_mem_cons, values_cons, values_nil]
    exact ⟨⟨by decide, by decide, hn _ hname, by decide, nofun⟩,
      Value.braceless_of_interfaceAddress ha, nofun⟩
  | disable hv hname ho =>
    rw [values_append, hv]
    simp only [List.forall_mem_append, List.forall_mem_cons, values_cons, values_nil, ho]
    exact ⟨⟨by decide, by decide, hn _ hname, nofun⟩, by decide, nofun⟩
  | route hv hd ht ho =>
    rw [values_append, hv]
    simp only [List.forall_mem_append, List.forall_mem_cons, values_cons, values_append]
    exact ⟨⟨by decide, by decide, by decide, nofun⟩, Value.braceless_of_network hd,
      ht.braceless hn, ho.braceless⟩

theorem PathAsks.head?_ne_set (h : PathAsks names path d?) : (values path).head? ≠ some "set" := by
  cases h with
  | dhcp hv | address hv | disable hv | route hv => simp [hv]

/-! ## Accepted commands -/

/-- Commands that are read to their end are the word that sets and a path each. -/
theorem exists_path_of_commandPaths {ls : List (List Token)} (hls : [] ∉ ls)
    (h : (commandPaths ls).fault = none) :
    ∀ l ∈ ls, ∃ path ∈ (commandPaths ls).paths, values l = "set" :: values path := by
  induction ls with
  | nil => exact nofun
  | cons l ls ih =>
    obtain ⟨t, ts, rfl⟩ := List.exists_cons_of_ne_nil (List.ne_of_not_mem_cons hls).symm
    unfold commandPaths at h ⊢
    cases hpath : commandPath (t :: ts) with
    | error e =>
      rw [hpath] at h
      cases h
    | ok path =>
      rw [hpath] at h
      rw [List.forall_mem_cons]
      constructor
      · obtain ⟨hset, -, rfl⟩ := commandPath_eq_ok_iff.mp hpath
        exact ⟨path, List.mem_cons_self, by rw [values_cons, hset]⟩
      · intro k hk
        obtain ⟨p, hp, hv⟩ := ih (List.not_mem_of_not_mem_cons hls) h k hk
        exact ⟨p, List.mem_cons_of_mem path hp, hv⟩

/-- A text that is accepted as commands is made of plain words, of which the first on each line is
the one that sets. -/
theorem plainWord_of_accepted (hn : ∀ n ∈ names, Braceless n) {ds : List Directive}
    (h : parse .commands names text = .ok ds) {l : List Token} (hl : l ∈ tokenize text) :
    (values l).head? = some "set" ∧ ∀ w ∈ values l, PlainWord w := by
  obtain ⟨hfault, hasked⟩ := accepted_iff.mp ⟨ds, h⟩
  obtain ⟨path, hpath, hvalues⟩ :=
    exists_path_of_commandPaths (nil_not_mem_tokenize text) hfault l hl
  obtain ⟨d?, hd⟩ := hasked path hpath
  have hword : ∀ w ∈ values l, Text.IsWord w.toList :=
    List.forall_mem_map.mpr fun t ht => isWord_of_mem_tokenize hl ht
  refine ⟨by rw [hvalues]; rfl, fun w hw => .of_braceless (hword w hw) ?_⟩
  rw [hvalues] at hw
  rcases List.mem_cons.mp hw with rfl | hw
  · decide
  · exact hd.braceless hn w hw

theorem detectFormat_of_plain (h : ∀ l ∈ tokenize text, ∀ w ∈ values l, PlainWord w) :
    detectFormat text = .commands := by
  rw [detectFormat_eq, if_neg]
  rw [Bool.not_eq_true, List.any_map, List.any_eq_false]
  intro l hl
  simp [opensBlock_of_plain (h l hl)]

/-- A text that says something and is accepted as commands is refused as nested blocks. -/
theorem refused_of_accepted_commands (hn : ∀ n ∈ names, Braceless n) (hwords : tokenize text ≠ [])
    {ds : List Directive} (h : parse .commands names text = .ok ds) :
    ∃ e, parse .hierarchical names text = .error e := by
  cases hblocks : parse .hierarchical names text with
  | error e => exact ⟨e, rfl⟩
  | ok ds' =>
    obtain ⟨l, ls, hls⟩ := List.exists_cons_of_ne_nil hwords
    obtain ⟨hset, hplain⟩ := plainWord_of_accepted hn h (hls ▸ List.mem_cons_self)
    have hread : readLine [] l = .ok ([], some l) := readLine_leaf hplain rfl
    have hpath : l ∈ (readPaths .hierarchical text).paths := by
      rw [readPaths, hls, blockPaths_cons hread]
      exact List.mem_cons_self
    obtain ⟨d?, hd⟩ := (accepted_iff.mp ⟨ds', hblocks⟩).2 l hpath
    exact absurd hset hd.head?_ne_set

/-! ## Opened blocks -/

/-- A block is opened by a line that ends in a brace. -/
theorem exists_opener {ls : List (List Token)} {stack : List Block}
    (h : openedBlocks stack ls ≠ []) : ∃ l ∈ ls, ∃ opened, splitOpener l = some opened := by
  induction ls generalizing stack with
  | nil => exact absurd rfl h
  | cons l ls ih =>
    have hbehind : ∀ stack', openedBlocks stack' ls ≠ [] →
        ∃ k ∈ l :: ls, ∃ opened, splitOpener k = some opened := fun stack' hne => by
      obtain ⟨k, hk, hopened⟩ := ih hne
      exact ⟨k, List.mem_cons_of_mem l hk, hopened⟩
    unfold openedBlocks at h
    cases hread : readLine stack l with
    | error e =>
      rw [hread] at h
      exact absurd rfl h
    | ok next =>
      obtain ⟨stack', path?⟩ := next
      rw [hread] at h
      have hline : LineRead l stack stack' path? := (readLine_ends stack l).of_ok hread
      cases stack' with
      | nil => exact hbehind [] h
      | cons b outer =>
        dsimp only at h
        split at h
        · rename_i hlength
          -- Of what a line can do, only opening a block makes the stack higher.
          cases hline with
          | opens _ hopens => exact ⟨l, List.mem_cons_self, _, hopens⟩
          | closeRoute | close => simp only [List.length_cons] at hlength; omega
          | child | leaf => exact absurd hlength (Nat.lt_irrefl _)
        · exact hbehind _ h

theorem detectFormat_of_opened (h : openedBlocks [] (tokenize text) ≠ []) :
    detectFormat text = .hierarchical := by
  obtain ⟨l, hl, opened, hopened⟩ := exists_opener h
  obtain ⟨last, hlast, hsplit⟩ := Option.bind_eq_some_iff.mp hopened
  have hbrace : '\x7b' ∈ last.value.toList := by
    rw [← List.mem_reverse]
    split at hsplit
    · rename_i hreverse
      rw [hreverse]
      exact List.mem_cons_self
    · cases hsplit
  have hany : opensBlock (values l) = true :=
    List.any_eq_true.mpr ⟨last.value, List.mem_map_of_mem (List.mem_of_getLast? hlast),
      List.contains_iff_mem.mpr hbrace⟩
  rw [detectFormat_eq, if_pos]
  exact List.any_eq_true.mpr ⟨values l, List.mem_map_of_mem hl, hany⟩

/-- A text that says something is accepted in one notation at most, and detection shows that one: a
text that is accepted as commands is refused as blocks and shows commands, and a text that is
accepted as blocks, of which it opens one, is refused as commands and shows blocks. -/
theorem detectFormat_of_accepted (hn : ∀ n ∈ names, Braceless n)
    (hwords : ∃ l ∈ Text.lines text, isSignificant l.toList = true) :
    (∀ ds, parse .commands names text = .ok ds →
      (∃ e, parse .hierarchical names text = .error e) ∧ detectFormat text = .commands) ∧
    ∀ ds, parse .hierarchical names text = .ok ds → openedBlocks [] (tokenize text) ≠ [] →
      (∃ e, parse .commands names text = .error e) ∧ detectFormat text = .hierarchical := by
  have htokens := tokenize_ne_nil hwords
  refine ⟨fun ds h => ⟨refused_of_accepted_commands hn htokens h,
    detectFormat_of_plain fun l hl => (plainWord_of_accepted hn h hl).2⟩,
    fun ds h hopened => ⟨?_, detectFormat_of_opened hopened⟩⟩
  cases hcommands : parse .commands names text with
  | error e => exact ⟨e, rfl⟩
  | ok ds' =>
    obtain ⟨e, he⟩ := refused_of_accepted_commands hn htokens hcommands
    cases h.symm.trans he

/-- One setting, as a command and as a block. -/
theorem detectFormat_of_accepted_setting :
    let names := ["eth0"]
    let commands := "set interfaces ethernet eth0 disable
"
    let blocks := "interfaces ethernet eth0 {
    disable
}
"
    (∀ n ∈ names, Braceless n) ∧
    ((∃ ds, parse .commands names commands = .ok ds) ∧
      (∃ e, parse .hierarchical names commands = .error e) ∧ detectFormat commands = .commands) ∧
    (∃ ds, parse .hierarchical names blocks = .ok ds) ∧
      (∃ e, parse .commands names blocks = .error e) ∧ detectFormat blocks = .hierarchical := by
  intro names commands blocks
  have hn : ∀ n ∈ names, Braceless n := by decide
  have hcommands : parse .commands names commands = .ok [.disable "eth0" ⟨"disable", 1, 30⟩] :=
    eq_ok_of_toOption (by decide +kernel)
  have hblocks : parse .hierarchical names blocks = .ok [.disable "eth0" ⟨"disable", 2, 5⟩] :=
    eq_ok_of_toOption (by decide +kernel)
  have hopened : openedBlocks [] (tokenize blocks) ≠ [] := by decide +kernel
  have hwords : ∀ text ∈ [commands, blocks],
      ∃ l ∈ Text.lines text, isSignificant l.toList = true := by decide +kernel
  exact ⟨hn, ⟨⟨_, hcommands⟩, (detectFormat_of_accepted hn (hwords _ (by simp))).1 _ hcommands⟩,
    ⟨_, hblocks⟩, (detectFormat_of_accepted hn (hwords _ (by simp))).2 _ hblocks hopened⟩

end RouterConsole.Config
