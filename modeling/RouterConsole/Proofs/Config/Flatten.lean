import RouterConsole.Proofs.Config.Generate
import RouterConsole.Proofs.Config.Places

/-!
# Nested blocks and the commands that say the same

Nested blocks that are read to their end stand for a list of paths. When each path is written out as
a command, the text of these commands is read as the same paths, at other places: the words of the
paths are words of the text, so that writing a path down and reading it undo each other. So both
texts have the same directives, or are refused for the same reason at the same word.
-/
namespace RouterConsole.Config

open Text (IsWord unwords)

/-- The text that has one command for each path. -/
def flatText (paths : List (List Token)) : String :=
  Text.unlines (paths.map fun path => "set " ++ unwords (values path))

/-- A directive whose token is left without a place. -/
def Directive.unplaced (d : Directive) : Directive := d.moved (fun _ => 0) (fun _ => 0)

/-- A result without the places of its tokens. -/
def unplacedResult : Except Error (List Directive) → Except Error (List Directive) :=
  movedResult (fun _ => 0) (fun _ => 0) (List.map Directive.unplaced)

/-- Without their places, tokens are no more than their words. -/
theorem map_moved_eq (ts : List Token) :
    ts.map (·.moved (fun _ => 0) (fun _ => 0)) = (values ts).map (⟨·, 0, 0⟩) := by
  rw [values, List.map_map]
  rfl

theorem moved_of_values {r s : PathReading} (hr : r.fault = none) (hs : s.fault = none)
    (h : r.paths.map values = s.paths.map values) :
    r.moved (fun _ => 0) (fun _ => 0) = s.moved (fun _ => 0) (fun _ => 0) := by
  have hunplaced : ∀ ps : List (List Token),
      ps.map (List.map (·.moved (fun _ => 0) (fun _ => 0))) =
        (ps.map values).map (List.map (⟨·, 0, 0⟩)) := by
    intro ps
    rw [List.map_map]
    exact List.map_congr_left fun ts _ => map_moved_eq ts
  rw [PathReading.moved, PathReading.moved, hr, hs, hunplaced, hunplaced, h]

/-- Paths with the same words have the same directives up to places. -/
theorem directives_of_values (names : List String) {r s : PathReading} (hr : r.fault = none)
    (hs : s.fault = none) (h : r.paths.map values = s.paths.map values) :
    unplacedResult (r.directives names) = unplacedResult (s.directives names) :=
  calc unplacedResult (r.directives names)
      = (r.moved (fun _ => 0) (fun _ => 0)).directives names := (directives_moved _ _ names r).symm
    _ = (s.moved (fun _ => 0) (fun _ => 0)).directives names := by rw [moved_of_values hr hs h]
    _ = unplacedResult (s.directives names) := directives_moved _ _ names s

/-- The commands of paths are read as these paths. -/
theorem readPaths_flatText {paths : List (List Token)} (hne : [] ∉ paths)
    (hw : ∀ path ∈ paths, Worded path) :
    ∃ ps, readPaths .commands (flatText paths) = ⟨ps, none⟩ ∧
      ps.map values = paths.map values := by
  have hwords : ∀ path ∈ paths.map values, ∀ w ∈ path, IsWord w.toList := by
    intro _ hp w hmem
    obtain ⟨path, hpath, rfl⟩ := List.mem_map.mp hp
    obtain ⟨t, ht, rfl⟩ := List.mem_map.mp hmem
    exact hw path hpath t ht
  have hnonempty : [] ∉ paths.map values := by
    intro hn
    obtain ⟨path, hp, hnil⟩ := List.mem_map.mp hn
    exact hne (values_eq_nil_iff.mp hnil ▸ hp)
  have hlines : flatText paths =
      Text.unlines ((paths.map values).map fun path => "set " ++ unwords path) := by
    rw [flatText, List.map_map]
    rfl
  rw [hlines]
  exact readPaths_commands hwords hnonempty

/-- Up to places, nested blocks and the commands of their paths are read alike: the same directives
in the same order, or the same fault at the same word. -/
theorem parse_flatText {text : String} (names : List String)
    (h : (readPaths .hierarchical text).fault = none) :
    unplacedResult (parse .commands names (flatText (readPaths .hierarchical text).paths)) =
      unplacedResult (parse .hierarchical names text) := by
  obtain ⟨ps, hps, hvalues⟩ := readPaths_flatText
    (readPaths_sound .hierarchical text).nonempty (readPaths_worded .hierarchical text)
  rw [parse_eq, parse_eq, hps]
  exact directives_of_values names rfl h hvalues

theorem exists_ok_of_unplaced {x y : Except Error (List Directive)} {ds : List Directive}
    (h : unplacedResult x = unplacedResult y) (hy : y = .ok ds) :
    ∃ ds', x = .ok ds' ∧ ds'.map Directive.unplaced = ds.map Directive.unplaced := by
  subst hy
  cases x with
  | error e => cases h
  | ok ds' => exact ⟨ds', rfl, Except.ok.inj h⟩

/-- Nested blocks that are read to their end have directives exactly if the commands of their paths
have, and then, position by position, the same ones up to the places of their tokens. -/
theorem flatText_reads_as_blocks {text : String} (names : List String)
    (h : (readPaths .hierarchical text).fault = none) :
    ((∃ ds, parse .hierarchical names text = .ok ds) ↔
      ∃ ds, parse .commands names (flatText (readPaths .hierarchical text).paths) = .ok ds) ∧
    ∀ ds ds', parse .hierarchical names text = .ok ds →
      parse .commands names (flatText (readPaths .hierarchical text).paths) = .ok ds' →
      ds'.map Directive.unplaced = ds.map Directive.unplaced := by
  have hsame := parse_flatText names h
  refine ⟨⟨?_, ?_⟩, ?_⟩
  · rintro ⟨ds, hds⟩
    obtain ⟨ds', hds', -⟩ := exists_ok_of_unplaced hsame hds
    exact ⟨ds', hds'⟩
  · rintro ⟨ds', hds'⟩
    obtain ⟨ds, hds, -⟩ := exists_ok_of_unplaced hsame.symm hds'
    exact ⟨ds, hds⟩
  · intro ds ds' hds hds'
    rw [hds, hds'] at hsame
    exact Except.ok.inj hsame

/-- The opener may end a word, and what a route block says may come in any order. -/
theorem flatText_reads_as_blocks_reordered :
    let text := "interfaces \x7b\n ethernet eth0\x7b\n  disable\n \x7d\n\x7d\n" ++
      "protocols static route 10.0.0.0/8\x7b\n disable\n interface eth0\n\x7d\n"
    let flat := flatText (readPaths .hierarchical text).paths
    (readPaths .hierarchical text).fault = none ∧
      flat = "set interfaces ethernet eth0 disable\n" ++
        "set protocols static route 10.0.0.0/8 interface eth0 disable\n" ∧
      ∃ ds ds', parse .hierarchical ["eth0"] text = .ok ds ∧
        parse .commands ["eth0"] flat = .ok ds' ∧ ds.length = 2 ∧
        ds'.map Directive.unplaced = ds.map Directive.unplaced := by
  intro text flat
  obtain ⟨hfault, hflat, hlength⟩ : (readPaths .hierarchical text).fault = none ∧
      flat = "set interfaces ethernet eth0 disable\n" ++
        "set protocols static route 10.0.0.0/8 interface eth0 disable\n" ∧
      (parse .hierarchical ["eth0"] text).toOption.map List.length = some 2 := by
    decide +kernel
  obtain ⟨ds, hds, hlength⟩ := Option.map_eq_some_iff.mp hlength
  have hblocks := eq_ok_of_toOption hds
  obtain ⟨hiff, hsame⟩ := flatText_reads_as_blocks ["eth0"] hfault
  obtain ⟨ds', hds'⟩ := hiff.mp ⟨ds, hblocks⟩
  exact ⟨hfault, hflat, ds, ds', hblocks, hds', hlength, hsame ds ds' hblocks hds'⟩

end RouterConsole.Config
