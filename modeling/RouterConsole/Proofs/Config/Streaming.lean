import RouterConsole.Proofs.Config.Places
import RouterConsole.Proofs.ValueText

/-!
# A configuration that arrives in parts

When a text ends with a line, the lines that come after it are read as if they stood alone, only
further down. A first part that is read without a fault leaves nothing behind: every block that it
opens is closed. A first part with a fault ends the reading whatever comes after it, unless all that
it lacks is a closing brace.
-/
namespace RouterConsole.Config

/-! ## Tokens further down -/

theorem scanLine_moved (f : Nat → Nat) (line column : Nat) (cs : List Char) :
    scanLine (f line) column cs = (scanLine line column cs).map (·.moved f id) := by
  induction column, cs using scanLine.induct with
  | case1 column => rw [scanLine_nil, scanLine_nil, List.map_nil]
  | case2 column c cs hc ih => rw [scanLine_blank hc, scanLine_blank hc, ih]
  | case3 column c cs hc word ih =>
    rw [scanLine_word (Bool.eq_false_iff.mpr hc), scanLine_word (Bool.eq_false_iff.mpr hc),
      List.map_cons]
    exact congrArg (_ :: ·) ih

theorem scanLines_moved (k line : Nat) (ls : List (List Char)) :
    scanLines (line + k) ls = (scanLines line ls).map (List.map (·.moved (· + k) id)) := by
  induction ls generalizing line with
  | nil => rfl
  | cons l ls ih =>
    have hnext : line + k + 1 = line + 1 + k := by omega
    rw [scanLines, scanLines, hnext, ih]
    split
    · rw [List.map_cons, ← scanLine_moved]
    · rfl

theorem scanLines_append (line : Nat) (ls ls' : List (List Char)) :
    scanLines line (ls ++ ls') = scanLines line ls ++ scanLines (line + ls.length) ls' := by
  induction ls generalizing line with
  | nil => rfl
  | cons l ls ih =>
    have hnext : line + (l :: ls).length = line + 1 + ls.length := by
      rw [List.length_cons]
      omega
    rw [List.cons_append, scanLines, scanLines, ih, hnext]
    split <;> rfl

/-- A text that is empty or ends in a line feed. -/
def EndsLine (text : String) : Prop := text = "" ∨ ∃ start : String, text = start ++ "\n"

theorem EndsLine.splitLines_append {text : String} (h : EndsLine text) (rest : String) :
    Text.splitLines (text ++ rest).toList =
      Text.splitLines text.toList ++ Text.splitLines rest.toList := by
  rcases h with rfl | ⟨start, rfl⟩
  · rw [String.toList_append]
    rfl
  · have hfeed : "\n".toList = ['\n'] := rfl
    rw [String.toList_append, String.toList_append, hfeed, List.append_assoc,
      List.singleton_append]
    exact Text.splitLines_append start.toList rest.toList

/-- What comes after a text is tokenized as if it stood alone, so many lines further down. -/
theorem EndsLine.tokenize_append {text : String} (h : EndsLine text) (rest : String) :
    tokenize (text ++ rest) = tokenize text ++
      (tokenize rest).map (List.map (·.moved (· + (Text.lines text).length) id)) := by
  have hlength : (Text.lines text).length = (Text.splitLines text.toList).length :=
    List.length_map _
  rw [tokenize, h.splitLines_append, scanLines_append, scanLines_moved, ← hlength]
  rfl

/-! ## Lines further down -/

section Moved

variable (line : Nat → Nat)

def Block.moved (b : Block) : Block :=
  ⟨b.opener.moved line id, b.path.map (·.moved line id),
    b.children.map (List.map (·.moved line id))⟩

theorem isRoute_moved (b : Block) : (b.moved line).isRoute = b.isRoute := by
  have hvalues : ((b.path.map (·.moved line id)).take 3).map (·.value) =
      (b.path.take 3).map (·.value) := by
    rw [List.map_take, List.map_map, ← List.map_take]
    rfl
  rw [Block.isRoute, Block.isRoute, Block.moved, List.length_map, hvalues]

theorem isTargetLine_moved (l : List Token) :
    isTargetLine (l.map (·.moved line id)) = isTargetLine l := by
  cases l <;> rfl

theorem routePath_of_block_moved (b : Block) :
    (b.moved line).routePath =
      movedResult line id (List.map (·.moved line id)) b.routePath := by
  have htargets : (b.children.map (List.map (·.moved line id))).filter isTargetLine =
      (b.children.filter isTargetLine).map (List.map (·.moved line id)) := by
    rw [List.filter_map]
    exact congrArg _ (List.filter_congr fun l _ => isTargetLine_moved line l)
  have hothers : (b.children.map (List.map (·.moved line id))).filter (!isTargetLine ·) =
      (b.children.filter (!isTargetLine ·)).map (List.map (·.moved line id)) := by
    rw [List.filter_map]
    exact congrArg _ (List.filter_congr fun l _ =>
      congrArg (fun t => !t) (isTargetLine_moved line l))
  unfold Block.routePath Block.moved
  dsimp only
  rw [htargets, hothers]
  match b.children.filter isTargetLine with
  | [] => rfl
  | [target] =>
    refine congrArg Except.ok ?_
    rw [List.map_append, List.map_append, List.map_flatten]
  | _ :: second :: _ =>
    cases second <;> rfl

theorem closer?_moved (l : List Token) :
    closer? (l.map (·.moved line id)) = (closer? l).map (·.moved line id) := by
  match l with
  | [] => rfl
  | [t] => exact (apply_ite (Option.map (·.moved line id)) (t.value = "\x7d") (some t) none).symm
  | _ :: _ :: _ => rfl

theorem splitOpener_moved (l : List Token) :
    splitOpener (l.map (·.moved line id)) =
      (splitOpener l).map fun p => (p.1.map (·.moved line id), p.2.moved line id) := by
  rw [splitOpener, splitOpener, List.getLast?_map]
  cases l.getLast? with
  | none => rfl
  | some last =>
    simp only [Option.map_some, Option.bind_some, Token.value_moved, ← List.map_dropLast]
    split
    · split
      · rfl
      · simp only [Option.map_some, List.map_append]
        rfl
    · rfl

theorem find?_hasBrace_moved (l : List Token) :
    (l.map (·.moved line id)).find? hasBrace = (l.find? hasBrace).map (·.moved line id) := by
  rw [List.find?_map]
  rfl

theorem currentPath_moved (stack : List Block) :
    currentPath (stack.map (·.moved line)) = (currentPath stack).map (·.moved line id) := by
  cases stack <;> rfl

theorem inRoute_moved (stack : List Block) :
    (stack.map (·.moved line)).head?.any (·.isRoute) = stack.head?.any (·.isRoute) := by
  cases stack with
  | nil => rfl
  | cons b outer => exact isRoute_moved line b

/-- What a line that is read leads to, further down. -/
def movedStep (p : List Block × Option (List Token)) : List Block × Option (List Token) :=
  (p.1.map (·.moved line), p.2.map (List.map (·.moved line id)))

/-- One line further down is read as it would be here. -/
theorem readLine_moved (stack : List Block) (l : List Token) :
    readLine (stack.map (·.moved line)) (l.map (·.moved line id)) =
      movedResult line id (movedStep line) (readLine stack l) := by
  unfold readLine
  rw [closer?_moved, splitOpener_moved, find?_hasBrace_moved]
  cases closer? l with
  | some brace =>
    cases stack with
    | nil => rfl
    | cons b outer =>
      have hroute : (b.moved line).isRoute = true ↔ b.isRoute = true := by rw [isRoute_moved]
      refine ite_moved_of_iff hroute ?_ rfl
      rw [routePath_of_block_moved]
      cases b.routePath <;> rfl
  | none =>
    cases splitOpener l with
    | some opened =>
      obtain ⟨words, brace⟩ := opened
      have hwords : words.map (·.moved line id) = [] ↔ words = [] := List.map_eq_nil_iff
      have hroute : (stack.map (·.moved line)).head?.any (·.isRoute) = true ↔
          stack.head?.any (·.isRoute) = true := by rw [inRoute_moved]
      refine ite_moved_of_iff hwords rfl (ite_moved_of_iff hroute rfl ?_)
      have hblock : (⟨brace.moved line id,
          currentPath (stack.map (·.moved line)) ++ words.map (·.moved line id), []⟩ : Block) =
            Block.moved line ⟨brace, currentPath stack ++ words, []⟩ := by
        rw [currentPath_moved, ← List.map_append]
        rfl
      exact congrArg (fun b : Block => Except.ok (b :: stack.map (·.moved line), none)) hblock
    | none =>
      cases l.find? hasBrace with
      | some t => rfl
      | none =>
        cases stack with
        | nil => rfl
        | cons b outer =>
          have hroute : (b.moved line).isRoute = true ↔ b.isRoute = true := by rw [isRoute_moved]
          refine ite_moved_of_iff hroute ?_ ?_
          · have hchildren : (b.moved line).children ++ [l.map (·.moved line id)] =
                (b.children ++ [l]).map (List.map (·.moved line id)) := by
              rw [List.map_append]
              rfl
            exact congrArg (fun children => Except.ok
              ({ b.moved line with children := children } :: _, none)) hchildren
          · have hpath : (b.moved line).path ++ l.map (·.moved line id) =
                (b.path ++ l).map (·.moved line id) := List.map_append.symm
            exact congrArg (fun path => Except.ok (_, some path)) hpath

theorem after_moved (r : PathReading) (path : Option (List Token)) :
    (r.moved line id).after (path.map (List.map (·.moved line id))) =
      (r.after path).moved line id := by
  cases path with
  | none => rfl
  | some path => rfl

theorem blockPaths_moved (stack : List Block) (ls : List (List Token)) :
    blockPaths (stack.map (·.moved line)) (ls.map (List.map (·.moved line id))) =
      (blockPaths stack ls).moved line id := by
  induction ls generalizing stack with
  | nil => cases stack <;> rfl
  | cons l ls ih =>
    rw [List.map_cons, blockPaths, blockPaths, readLine_moved]
    cases readLine stack l with
    | error e => rfl
    | ok opened =>
      obtain ⟨stack', path⟩ := opened
      refine Eq.trans ?_ (after_moved line (blockPaths stack' ls) path)
      exact congrArg (PathReading.after · _) (ih stack')

theorem commandPath_moved (l : List Token) :
    commandPath (l.map (·.moved line id)) =
      movedResult line id (List.map (·.moved line id)) (commandPath l) := by
  cases l with
  | nil => rfl
  | cons t ts =>
    have hend : ts.map (·.moved line id) = [] ↔ ts = [] := List.map_eq_nil_iff
    exact ite_moved rfl (ite_moved_of_iff hend rfl rfl)

theorem commandPaths_moved (ls : List (List Token)) :
    commandPaths (ls.map (List.map (·.moved line id))) = (commandPaths ls).moved line id := by
  induction ls with
  | nil => rfl
  | cons l ls ih =>
    rw [List.map_cons, commandPaths, commandPaths, commandPath_moved]
    cases commandPath l with
    | error e => rfl
    | ok path =>
      refine Eq.trans ?_ (after_moved line (commandPaths ls) (some path))
      exact congrArg (PathReading.after · _) ih

end Moved

/-! ## Lines after lines -/

/-- A reading that starts with the given paths. -/
def PathReading.afterAll (r : PathReading) (paths : List (List Token)) : PathReading :=
  { r with paths := paths ++ r.paths }

theorem afterAll_nil (r : PathReading) : r.afterAll [] = r := rfl

theorem after_afterAll (r : PathReading) (path : Option (List Token)) (paths : List (List Token)) :
    (r.afterAll paths).after path = r.afterAll (path.toList ++ paths) := by
  rw [PathReading.after, PathReading.afterAll, PathReading.afterAll, List.append_assoc]

/-- Lines that are all read leave paths and open blocks to the lines after them; of lines that are
not, no later line is read. -/
theorem blockPaths_append (stack : List Block) (ls : List (List Token)) :
    (∃ paths stack', ∀ rest,
      blockPaths stack (ls ++ rest) = (blockPaths stack' rest).afterAll paths) ∨
    ∃ paths e, ∀ rest, blockPaths stack (ls ++ rest) = ⟨paths, some e⟩ := by
  induction ls generalizing stack with
  | nil => exact .inl ⟨[], stack, fun rest => (afterAll_nil _).symm⟩
  | cons l ls ih =>
    cases hl : readLine stack l with
    | error e => exact .inr ⟨[], e, fun rest => by rw [List.cons_append, blockPaths, hl]⟩
    | ok opened =>
      obtain ⟨stack', path⟩ := opened
      have hcons : ∀ rest, blockPaths stack (l :: ls ++ rest) =
          (blockPaths stack' (ls ++ rest)).after path := fun rest => by
        rw [List.cons_append, blockPaths, hl]
      rcases ih stack' with ⟨paths, last, h⟩ | ⟨paths, e, h⟩
      · refine .inl ⟨path.toList ++ paths, last, fun rest => ?_⟩
        rw [hcons, h, after_afterAll]
      · refine .inr ⟨path.toList ++ paths, e, fun rest => ?_⟩
        rw [hcons, h, PathReading.after]

theorem commandPaths_append (ls : List (List Token)) :
    (∃ paths, ∀ rest, commandPaths (ls ++ rest) = (commandPaths rest).afterAll paths) ∨
    ∃ paths e, ∀ rest, commandPaths (ls ++ rest) = ⟨paths, some e⟩ := by
  induction ls with
  | nil => exact .inl ⟨[], fun rest => (afterAll_nil _).symm⟩
  | cons l ls ih =>
    cases hl : commandPath l with
    | error e => exact .inr ⟨[], e, fun rest => by rw [List.cons_append, commandPaths, hl]⟩
    | ok path =>
      have hcons : ∀ rest, commandPaths (l :: ls ++ rest) =
          (commandPaths (ls ++ rest)).after (some path) := fun rest => by
        rw [List.cons_append, commandPaths, hl]
      rcases ih with ⟨paths, h⟩ | ⟨paths, e, h⟩
      · refine .inl ⟨path :: paths, fun rest => ?_⟩
        rw [hcons, h, after_afterAll]
        rfl
      · refine .inr ⟨path :: paths, e, fun rest => ?_⟩
        rw [hcons, h, PathReading.after]
        rfl

/-- The paths of tokenized lines. -/
def readLines : Format → List (List Token) → PathReading
  | .commands => commandPaths
  | .hierarchical => blockPaths []

theorem readLines_tokenize (format : Format) (text : String) :
    readLines format (tokenize text) = readPaths format text := by
  cases format <;> rfl

theorem readLines_moved (line : Nat → Nat) (format : Format) (ls : List (List Token)) :
    readLines format (ls.map (List.map (·.moved line id))) =
      (readLines format ls).moved line id := by
  cases format with
  | commands => exact commandPaths_moved line ls
  | hierarchical => exact blockPaths_moved line [] ls

/-- What lines that are read alone mean for the lines after them. -/
inductive Continues (format : Format) (ls : List (List Token)) : Prop
  | complete (paths : List (List Token)) (alone : readLines format ls = ⟨paths, none⟩)
      (reads : ∀ rest, readLines format (ls ++ rest) = (readLines format rest).afterAll paths)
  | failed (paths : List (List Token)) (e : Error) (alone : readLines format ls = ⟨paths, some e⟩)
      (reads : ∀ rest, readLines format (ls ++ rest) = ⟨paths, some e⟩)
  | unclosed (paths : List (List Token)) (brace : Token)
      (alone : readLines format ls = ⟨paths, some (Fault.missingClose.at brace)⟩)
      (reads : ∀ rest, ∃ r : PathReading, readLines format (ls ++ rest) = r.afterAll paths)

theorem continues_of_complete {format : Format} {ls paths : List (List Token)}
    (h : ∀ rest, readLines format (ls ++ rest) = (readLines format rest).afterAll paths) :
    Continues format ls := by
  refine .complete paths ?_ h
  have halone := h []
  have hnone : readLines format [] = ⟨[], none⟩ := by cases format <;> rfl
  rwa [List.append_nil, hnone, PathReading.afterAll, List.append_nil] at halone

theorem continues_of_failed {format : Format} {ls paths : List (List Token)} {e : Error}
    (h : ∀ rest, readLines format (ls ++ rest) = ⟨paths, some e⟩) : Continues format ls := by
  refine .failed paths e ?_ h
  have halone := h []
  rwa [List.append_nil] at halone

theorem continues (format : Format) (ls : List (List Token)) : Continues format ls := by
  cases format with
  | commands =>
    rcases commandPaths_append ls with ⟨paths, h⟩ | ⟨paths, e, h⟩
    · exact continues_of_complete h
    · exact continues_of_failed h
  | hierarchical =>
    rcases blockPaths_append [] ls with ⟨paths, stack, h⟩ | ⟨paths, e, h⟩
    · cases stack with
      | nil => exact continues_of_complete h
      | cons b outer =>
        refine .unclosed paths b.opener ?_ fun rest => ⟨_, h rest⟩
        have halone := h []
        rwa [List.append_nil, PathReading.afterAll, blockPaths, List.append_nil] at halone
    · exact continues_of_failed h

/-! ## Directives after directives -/

section Directives

variable {names : List String} {paths : List (List Token)}

theorem directives_of_ok {ds : List Directive}
    (h : (⟨paths, none⟩ : PathReading).directives names = .ok ds) (r : PathReading) :
    (r.afterAll paths).directives names = (r.directives names).map (ds ++ ·) := by
  unfold PathReading.directives at h ⊢
  rw [PathReading.afterAll, List.mapM_append]
  cases hp : paths.mapM (interpret names) with
  | error e =>
    rw [hp] at h
    cases h
  | ok qs =>
    rw [hp] at h
    obtain rfl := Except.ok.inj h
    cases r.paths.mapM (interpret names) with
    | error e => rfl
    | ok rs =>
      cases r.fault with
      | some e => rfl
      | none =>
        refine congrArg Except.ok ?_
        exact List.filterMap_append

/-- The fault that a reading is refused for is one of its paths', which no longer reading hides, or
the one that ended the reading. -/
theorem directives_of_error {fault : Option Error} {e : Error}
    (h : (⟨paths, fault⟩ : PathReading).directives names = .error e) :
    (∀ r : PathReading, (r.afterAll paths).directives names = .error e) ∨ fault = some e := by
  unfold PathReading.directives at h ⊢
  cases hp : paths.mapM (interpret names) with
  | error e' =>
    rw [hp] at h
    obtain rfl := Except.error.inj h
    refine .inl fun r => ?_
    rw [PathReading.afterAll, List.mapM_append, hp]
    rfl
  | ok ds =>
    rw [hp] at h
    cases fault with
    | none => cases h
    | some e' =>
      obtain rfl := Except.error.inj h
      exact .inr rfl

theorem directives_of_fault {e : Error} {ds : List Directive} :
    (⟨paths, some e⟩ : PathReading).directives names ≠ .ok ds := by
  unfold PathReading.directives
  cases paths.mapM (interpret names) <;> exact nofun

end Directives

/-- The number of lines of a text, added to the number of a line that comes after the text. -/
def below (text : String) (line : Nat) : Nat := line + (Text.lines text).length

section Parts

variable {format : Format} {names : List String} {text : String}

theorem readPaths_append (h : EndsLine text) (rest : String) :
    readPaths format (text ++ rest) =
      readLines format
        (tokenize text ++ (tokenize rest).map (List.map (·.moved (below text) id))) := by
  rw [← readLines_tokenize, h.tokenize_append]
  rfl

theorem parse_append_of_ok (ht : EndsLine text) {ds : List Directive}
    (h : parse format names text = .ok ds) (rest : String) :
    parse format names (text ++ rest) =
      (movedResult (below text) id (List.map (·.moved (below text) id))
        (parse format names rest)).map (ds ++ ·) := by
  rw [parse_eq, ← readLines_tokenize] at h
  rw [parse_eq, readPaths_append ht]
  cases continues format (tokenize text) with
  | complete paths alone reads =>
    rw [alone] at h
    rw [reads, directives_of_ok h, readLines_moved, directives_moved, readLines_tokenize, parse_eq]
  | failed paths e alone =>
    rw [alone] at h
    exact absurd h directives_of_fault
  | unclosed paths brace alone =>
    rw [alone] at h
    exact absurd h directives_of_fault

theorem parse_append_of_error (ht : EndsLine text) {e : Error}
    (h : parse format names text = .error e) (he : e.fault ≠ .missingClose) (rest : String) :
    parse format names (text ++ rest) = .error e := by
  rw [parse_eq, ← readLines_tokenize] at h
  rw [parse_eq, readPaths_append ht]
  cases continues format (tokenize text) with
  | complete paths alone reads =>
    rw [alone] at h
    rw [reads]
    exact (directives_of_error h).resolve_right nofun _
  | failed paths e' alone reads =>
    rw [alone] at h
    rw [reads]
    exact h
  | unclosed paths brace alone reads =>
    rw [alone] at h
    obtain ⟨r, hr⟩ := reads ((tokenize rest).map (List.map (·.moved (below text) id)))
    have hbrace : some (Fault.missingClose.at brace) ≠ some e := by
      intro hb
      rw [← Option.some.inj hb] at he
      exact he rfl
    rw [hr]
    exact (directives_of_error h).resolve_right hbrace r

/-- Reading goes on from part to part. After a first part that ends with a line and is read without
a fault, the rest is read as if it stood alone: it succeeds or fails as it would, its directives
come behind those of the first part, and the lines that its tokens and its fault name are counted
from the beginning of the whole. A fault in the first part is the fault of the whole, unless it is
that a block was not closed. -/
theorem parse_in_parts (format : Format) (names : List String) {text : String}
    (ht : EndsLine text) :
    (∀ ds, parse format names text = .ok ds → ∀ rest,
      ((∃ all, parse format names (text ++ rest) = .ok all) ↔
          ∃ ds', parse format names rest = .ok ds') ∧
        (∀ ds', parse format names rest = .ok ds' →
          parse format names (text ++ rest) =
            .ok (ds ++ ds'.map (·.moved (below text) id))) ∧
        ∀ e, parse format names rest = .error e →
          parse format names (text ++ rest) = .error (e.moved (below text) id)) ∧
      ∀ e, parse format names text = .error e → e.fault ≠ .missingClose →
        ∀ rest, parse format names (text ++ rest) = .error e := by
  constructor
  · intro ds hds rest
    have hwhole := parse_append_of_ok ht hds rest
    cases hrest : parse format names rest with
    | error e =>
      rw [hrest] at hwhole
      refine ⟨⟨?_, nofun⟩, nofun, fun e' he' => ?_⟩
      · rintro ⟨all, hall⟩
        rw [hall] at hwhole
        cases hwhole
      · obtain rfl := Except.error.inj he'
        exact hwhole
    | ok ds₂ =>
      rw [hrest] at hwhole
      refine ⟨⟨fun _ => ⟨ds₂, rfl⟩, fun _ => ⟨_, hwhole⟩⟩, fun ds' hds' => ?_, nofun⟩
      obtain rfl := Except.ok.inj hds'
      exact hwhole
  · intro e he hclose rest
    exact parse_append_of_error ht he hclose rest

end Parts

/-- A fault in the second part is noticed at its line in the whole, also where its reason names the
line; and a closing brace too many is a fault whatever comes after it. -/
theorem parse_in_parts_of_cut_route :
    let first := "interfaces \x7b\r\n ethernet eth0\x7b\n  disable\n \x7d\n\x7d\n"
    let rest := "\nprotocols static \x7b\n route 10.1.0.0/16 \x7b\n  interface\n \x7d\n\x7d\n"
    let fault : Error := (Fault.unexpectedEnd 4).at ⟨"interface", 4, 3⟩
    EndsLine first ∧ (∃ ds, parse .hierarchical ["eth0"] first = .ok ds ∧ ds.length = 1) ∧
      parse .hierarchical ["eth0"] rest = .error fault ∧
      parse .hierarchical ["eth0"] (first ++ rest) =
        .error ((Fault.unexpectedEnd 9).at ⟨"interface", 9, 3⟩) ∧
      EndsLine "\x7d\n" ∧
      parse .hierarchical ["eth0"] ("\x7d\n" ++ first) =
        .error (Fault.unexpectedClose.at ⟨"\x7d", 1, 1⟩) := by
  intro first rest fault
  have hfirst : EndsLine first :=
    .inr ⟨"interfaces \x7b\r\n ethernet eth0\x7b\n  disable\n \x7d\n\x7d", rfl⟩
  have hbrace : EndsLine "\x7d\n" := .inr ⟨"\x7d", rfl⟩
  have hlength : (parse .hierarchical ["eth0"] first).toOption.map List.length = some 1 := by
    decide +kernel
  obtain ⟨ds, hds, hlength⟩ := Option.map_eq_some_iff.mp hlength
  have hok := eq_ok_of_toOption hds
  have hrest : parse .hierarchical ["eth0"] rest = .error fault :=
    eq_error_of_failure? (by decide +kernel)
  have hclose : parse .hierarchical ["eth0"] "\x7d\n" =
      .error (Fault.unexpectedClose.at ⟨"\x7d", 1, 1⟩) :=
    eq_error_of_failure? (by decide +kernel)
  have hmoved : fault.moved (below first) id =
      (Fault.unexpectedEnd 9).at ⟨"interface", 9, 3⟩ := by decide +kernel
  have hwhole := ((parse_in_parts .hierarchical ["eth0"] hfirst).1 ds hok rest).2.2 fault hrest
  rw [hmoved] at hwhole
  exact ⟨hfirst, ⟨ds, hok, hlength⟩, hrest, hwhole, hbrace,
    (parse_in_parts .hierarchical ["eth0"] hbrace).2 _ hclose nofun first⟩

end RouterConsole.Config
