import RouterConsole.Proofs.Shell.Dialogue
import RouterConsole.Startup.Run

/-!
# Scripts against sessions

The exit code of a script counts its failed lines, and a script that can be read comes to the same
as an operator who types its lines.
-/
namespace RouterConsole

open Shell (commandLines dialogue Exchange)

theorem Shell.Result.isFailure_iff {result : Result} :
    result.isFailure = true ↔ ∃ p, result = .presented p ∧ p.severity = .error := by
  cases result <;> simp [isFailure, Presented.isFailure]

namespace Startup

variable {files : Storage.Files} {r : Router} {path text : String}

/-- The exchanges of a script. -/
def scriptExchanges (files : Storage.Files) (r : Router) (text : String) : List Exchange :=
  (dialogue files r (commandLines (Text.lines text))).exchanges

/-- What a script that can be read comes to: what nobody expects comes out of it, and otherwise the
failed lines decide its exit code. -/
theorem script_of_text (hread : Storage.readText files path = .ok text) :
    (script files path r).output = (Shell.runScript files r text).output ∧
      ((∃ crash, (script files path r).ending = .crash crash) ↔
        ∃ x ∈ scriptExchanges files r text, ∃ crash, x.result = .crashed crash) ∧
      ((∀ x ∈ scriptExchanges files r text, ∀ crash, x.result ≠ .crashed crash) →
        (script files path r).ending =
          .exit (if (scriptExchanges files r text).any (·.result.isFailure) then exitScript
            else exitSuccess)) := by
  have hrecords := Shell.runLines_records files r (Text.lines text)
  cases hcrash : (Shell.runScript files r text).crash with
  | some crash =>
    obtain ⟨x, hx, hresult⟩ := (hrecords.crash crash).mp hcrash
    have hscript : script files path r =
        { ending := .crash (.reading crash)
          output := (Shell.runScript files r text).output
          log := (Shell.runScript files r text).log } := by
      simp only [script, hread, hcrash]
    rw [hscript]
    exact ⟨rfl, ⟨fun _ => ⟨x, hx, crash, hresult⟩, fun _ => ⟨_, rfl⟩⟩,
      fun hnone => absurd hresult (hnone x hx crash)⟩
  | none =>
    have hnone : ∀ x ∈ scriptExchanges files r text, ∀ crash, x.result ≠ .crashed crash := by
      intro x hx crash hresult
      have hsome := (hrecords.crash crash).mpr ⟨x, hx, hresult⟩
      cases hcrash.symm.trans hsome
    have hfailures : (Shell.runScript files r text).failures = 0 ↔
        ¬(scriptExchanges files r text).any (·.result.isFailure) := by
      rw [Shell.runScript, hrecords.failures, List.countP_eq_zero]
      simp [scriptExchanges]
    have hending : (script files path r).ending =
        .exit (if (scriptExchanges files r text).any (·.result.isFailure) then exitScript
          else exitSuccess) := by
      simp only [script, hread, hcrash]
      by_cases h : (Shell.runScript files r text).failures = 0
      · rw [if_pos h, if_neg (hfailures.mp h)]
      · rw [if_neg h, if_pos (not_not.mp (mt hfailures.mpr h))]
    refine ⟨?_, ⟨?_, ?_⟩, fun _ => hending⟩
    · simp only [script, hread, hcrash]
      split <;> rfl
    · rintro ⟨crash, h⟩
      cases hending.symm.trans h
    · rintro ⟨x, hx, crash, hresult⟩
      exact absurd hresult (hnone x hx crash)

/-- Nothing that nobody expects comes out of lines that load no file whose bytes are not text. -/
theorem scriptExchanges_ne_crashed
    (hload : ∀ line ∈ Text.lines text, ∀ file fault,
      Text.words line = ["load", file] → ¬Storage.NotText files file fault) :
    ∀ x ∈ scriptExchanges files r text, ∀ crash, x.result ≠ .crashed crash := by
  intro x hx crash hcrashed
  obtain ⟨hline, hresult⟩ := Shell.of_mem_exchanges hx
  rw [hresult] at hcrashed
  obtain ⟨file, fault, hwords, hfault, -⟩ := Shell.dispatch_crashed_iff_words.mp hcrashed
  exact hload x.line (List.mem_of_mem_filter hline) file fault hwords hfault

/-- A script and a session that is given its lines come to the same: the router after them, what
they write apart from the lines that a script shows, and where they stop. The exit code of the
script tells whether one of the lines failed. -/
theorem script_agrees_with_session (hread : Storage.readText files path = .ok text)
    (hload : ∀ line ∈ Text.lines text, ∀ file fault,
      Text.words line = ["load", file] → ¬Storage.NotText files file fault) :
    let lines := Text.lines text
    let script := Shell.runScript files r text
    let session := Shell.runSession files r (lines.map .line)
    let said := dialogue files r (commandLines lines)
    let failed := ∃ x ∈ said.exchanges, ∃ p, x.result = .presented p ∧ p.severity = .error
    script.router = session.router ∧
      (Startup.script files path r).output = script.output ∧
      ((∀ line ∈ lines, ¬Shell.IsComment line) →
        script.output = String.join (said.exchanges.map fun x => x.echo ++ x.output) ∧
        session.output =
          String.join (said.exchanges.map (·.output)) ++ (if said.ended then "" else "\n") ∧
        ∀ read, read <+: lines →
          (Shell.Stopped (Shell.runLines files r) read ↔
            Shell.Stopped (fun read => Shell.runSession files r (read.map .line)) read)) ∧
      ((Startup.script files path r).ending = .exit 2 ↔ failed) ∧
      ((Startup.script files path r).ending = .exit 0 ↔ ¬failed) := by
  intro lines script session said failed
  have hscript := Shell.runLines_records files r lines
  have hsession := Shell.runEvents_records files r lines
  obtain ⟨houtput, -, hending⟩ := script_of_text (r := r) hread
  have hcode := hending (scriptExchanges_ne_crashed hload)
  have hfailed : (scriptExchanges files r text).any (·.result.isFailure) ↔ failed := by
    simp only [List.any_eq_true, Shell.Result.isFailure_iff]
    rfl
  refine ⟨?_, houtput, fun hcomments => ⟨hscript.output, ?_, fun read hread => ?_⟩, ?_, ?_⟩
  · calc script.router = said.router := hscript.router
      _ = (dialogue files r (Shell.spoken lines)).router :=
        (Shell.dialogue_spoken files r lines).symm
      _ = session.router := hsession.router.symm
  · have hoff := hsession.output
    rwa [Shell.spoken_eq_commandLines hcomments] at hoff
  · have hprefix : ∀ line ∈ read, ¬Shell.IsComment line := fun line hline =>
      hcomments line (hread.subset hline)
    rw [Shell.stopped_runLines_iff, Shell.stopped_runSession_iff,
      Shell.spoken_eq_commandLines hprefix]
  · rw [hcode, ← hfailed]
    simp [exitScript, exitSuccess]
  · rw [hcode, ← hfailed]
    simp [exitScript, exitSuccess]

/-- A script that loads itself as a configuration fails, and goes on until it leaves. -/
theorem script_agrees_with_session_of_own_load :
    let text := "configure\n load s\nexit\n\nexit\nhelp\n"
    let files : Storage.Files := fun _ => .bytes (text.toList.map (·.toNat.toUInt8))
    let r := Router.new "edge" [.fresh "eth0" ⟨.replicate 6 2⟩]
    (Shell.runScript files r text).router =
        (Shell.runSession files r ((Text.lines text).map .line)).router ∧
      (script files "s" r).ending = .exit 2 ∧
      (∃ x ∈ scriptExchanges files r text,
        ∃ p, x.result = .presented p ∧ p.severity = .error) ∧
      Shell.Stopped (Shell.runLines files r) ["configure", " load s", "exit", "", "exit"] ∧
      Shell.Stopped (fun read => Shell.runSession files r (read.map .line))
        ["configure", " load s", "exit", "", "exit"] := by
  intro text files r
  have hread : Storage.readText files "s" = .ok text := by decide +kernel
  have hload : ∀ line ∈ Text.lines text, ∀ file fault,
      Text.words line = ["load", file] → ¬Storage.NotText files file fault := by
    rintro line - file fault - ⟨content, ho, hd⟩
    cases ho
    have hok : (Text.decodeUtf8 (text.toList.map (·.toNat.toUInt8))).toBool = true := by
      decide +kernel
    rw [hd] at hok
    cases hok
  obtain ⟨hrouter, -, hplain, hexit, -⟩ := script_agrees_with_session (r := r) hread hload
  have hcomments : ∀ line ∈ Text.lines text, ¬Shell.IsComment line := by
    unfold Shell.IsComment
    decide +kernel
  have hlines : ["configure", " load s", "exit", "", "exit"] <+: Text.lines text := by
    decide +kernel
  have hended : (dialogue files r
      (commandLines ["configure", " load s", "exit", "", "exit"])).ended = true := by
    decide +kernel
  have hstopped := Shell.stopped_runLines_iff.mpr hended
  have hcode : (script files "s" r).ending = .exit 2 := by decide +kernel
  exact ⟨hrouter, hcode, hexit.mp hcode, hstopped,
    ((hplain hcomments).2.2 _ hlines).mp hstopped⟩

end Startup

end RouterConsole
