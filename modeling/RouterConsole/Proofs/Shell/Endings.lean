import RouterConsole.Proofs.Shell.Execution
import RouterConsole.Proofs.Shell.Matching

/-!
# How a line can end

A line is carried out or presented as a failure, and the session goes on, with two exceptions. One
word leaves the session, in one mode; and a file that is to be loaded and whose bytes are no text
ends it in a way that no part of the program expects.
-/
namespace RouterConsole.Shell

variable {files : Storage.Files} {r : Router} {c : Command} {args : Arguments} {line : String}
  {crash : Storage.Crash}

namespace Command

theorem executeLoad_crashed_iff {path : String} :
    (executeLoad files r path).ending = .crashed crash ↔
      ∃ fault, Storage.NotText files path fault ∧ crash = .notText fault := by
  have hcrash : (Config.loadFile files r path).result = .error (.unreadable (.crash crash)) ↔
      ∃ fault, Storage.NotText files path fault ∧ crash = .notText fault :=
    Config.loadFile_crash_iff
  rw [← hcrash]
  unfold executeLoad
  dsimp only
  split <;> rename_i hr <;> simp [hr]

theorem executeLoad_ne_left (files : Storage.Files) (r : Router) (path : String) :
    (executeLoad files r path).ending ≠ .left := by
  unfold executeLoad
  dsimp only
  split <;> simp

theorem attempt_ne_left (r : Router) (outcome : Except RouterError Router) (answer : String) :
    (attempt r outcome answer).ending ≠ .left := by
  cases outcome <;> simp [attempt]

/-- Only one command leaves the session, and only in operational mode. -/
theorem execute_left_iff :
    (c.execute files args r).ending = .left ↔ c = .exit ∧ r.mode = .operational := by
  constructor
  · intro h
    have hran := execute_ran files c args r
    generalize hx : c.execute files args r = x at h hran
    cases hran with
    | shown | performed | refused => cases h
    | loaded => exact absurd h (executeLoad_ne_left files r _)
    | left hc =>
      subst hc
      refine ⟨rfl, ?_⟩
      by_contra hm
      rw [execute, if_neg hm] at hx
      exact attempt_ne_left r _ "exit" (congrArg Execution.ending hx)
  · rintro ⟨rfl, hm⟩
    rw [execute, if_pos hm]

/-- Only loading meets what nobody expects. -/
theorem execute_crashed_iff :
    (c.execute files args r).ending = .crashed crash ↔
      c = .load ∧
        ∃ fault, Storage.NotText files (args.value "file") fault ∧ crash = .notText fault := by
  constructor
  · intro h
    have hran := execute_ran files c args r
    generalize c.execute files args r = x at h hran
    cases hran with
    | shown | performed | refused | left => cases h
    | loaded hc => exact ⟨hc, executeLoad_crashed_iff.mp h⟩
  · rintro ⟨rfl, hfault⟩
    exact executeLoad_crashed_iff.mpr hfault

end Command

theorem dispatch_left_iff_words : (dispatch files r line).result = .left ↔
    r.mode = .operational ∧ Text.words line = ["exit"] := by
  simp only [dispatch_left_iff, Command.called?_eq, Command.execute_left_iff]
  constructor
  · rintro ⟨c, args, hcall, rfl, hm⟩
    exact ⟨hm, (Command.calls_exit_iff.mp hcall).2⟩
  · rintro ⟨hm, hwords⟩
    exact ⟨.exit, [], Command.calls_exit_iff.mpr ⟨rfl, hwords⟩, rfl, hm⟩

theorem dispatch_crashed_iff_words : (dispatch files r line).result = .crashed crash ↔
    ∃ file fault, Text.words line = ["load", file] ∧ Storage.NotText files file fault ∧
      crash = .notText fault := by
  simp only [dispatch_crashed_iff, Command.called?_eq, Command.execute_crashed_iff]
  constructor
  · rintro ⟨c, args, hcall, rfl, fault, hfault, rfl⟩
    obtain ⟨file, rfl, hwords⟩ := Command.calls_load_iff.mp hcall
    exact ⟨file, fault, hwords, hfault, rfl⟩
  · rintro ⟨file, fault, hwords, hfault, rfl⟩
    exact ⟨.load, _, Command.calls_load_iff.mpr ⟨file, rfl, hwords⟩, rfl, fault, hfault, rfl⟩

/-- At every router and with every file system, a line gives no result, or a presented failure, or
leaves the session, exactly if it loads no file whose bytes are not text. It leaves the session
exactly in operational mode and with one word; and what nobody expects is always the first fault in
the bytes of a file that was to be loaded. -/
theorem session_goes_on_unless_bytes_are_no_text (files : Storage.Files) (r : Router)
    (line : String) :
    ((dispatch files r line).result = .done ∨
        (∃ p, (dispatch files r line).result = .presented p) ∨
        (dispatch files r line).result = .left ↔
      ∀ file fault, Text.words line = ["load", file] → ¬Storage.NotText files file fault) ∧
    ((dispatch files r line).result = .left ↔
      r.mode = .operational ∧ Text.words line = ["exit"]) ∧
    ∀ crash, (dispatch files r line).result = .crashed crash ↔
      ∃ file fault, Text.words line = ["load", file] ∧ Storage.NotText files file fault ∧
        crash = .notText fault := by
  refine ⟨?_, dispatch_left_iff_words, fun crash => dispatch_crashed_iff_words⟩
  constructor
  · intro h file fault hwords hfault
    have hcrashed : (dispatch files r line).result = .crashed (.notText fault) :=
      dispatch_crashed_iff_words.mpr ⟨file, fault, hwords, hfault, rfl⟩
    simp [hcrashed] at h
  · intro h
    cases hresult : (dispatch files r line).result with
    | done => exact .inl rfl
    | presented p => exact .inr (.inl ⟨p, rfl⟩)
    | left => exact .inr (.inr rfl)
    | crashed crash =>
      obtain ⟨file, fault, hwords, hfault, -⟩ := dispatch_crashed_iff_words.mp hresult
      exact absurd hfault (h file fault hwords)

/-- A file of one byte that starts no character ends the session of whoever loads it. -/
theorem session_ended_by_one_byte :
    let files : Storage.Files := fun _ => .bytes [0xFF]
    let r := Router.new "edge" [.fresh "eth0" ⟨.replicate 6 2⟩]
    (dispatch files r "load f").result = .crashed (.notText ⟨.invalidStart, 0xFF, 0, 1⟩) ∧
      ¬((dispatch files r "load f").result = .done ∨
        (∃ p, (dispatch files r "load f").result = .presented p) ∨
        (dispatch files r "load f").result = .left) := by
  intro files r
  have hcrashed : (dispatch files r "load f").result =
      .crashed (.notText ⟨.invalidStart, 0xFF, 0, 1⟩) := by decide +kernel
  refine ⟨hcrashed, ?_⟩
  simp [hcrashed]

end RouterConsole.Shell
