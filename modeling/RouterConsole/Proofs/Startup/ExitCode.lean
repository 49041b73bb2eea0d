import RouterConsole.Proofs.Config.Atomic
import RouterConsole.Proofs.Config.File
import RouterConsole.Proofs.Startup.Script

/-!
# Exit codes

What goes wrong while a run loads its configuration or carries out its script becomes an exit code,
with exceptions that all lie in the file system: a configuration that is there but does not open,
bytes that are no text, and a script whose path is broken.
-/
namespace RouterConsole.Startup

open Config (Format)
open Shell (Event)

variable {files : Storage.Files} {macs : Nat → MacAddress} {o : Options} {events : List Event}
  {r : Router} {path text : String}

/-- The router that a dump or a script meets: the one that the options ask for, after the
configuration if one is named. -/
def Configured (files : Storage.Files) (macs : Nat → MacAddress) (o : Options) (r : Router) :
    Prop :=
  (configure files o (buildRouter macs o)).2 = .ok r

/-- The configuration in this file is asked for and cannot be read, decoded, parsed or applied. -/
def Refused (files : Storage.Files) (macs : Nat → MacAddress) (o : Options) (path : String) :
    Prop :=
  o.config = some (.named path) ∧
    ∃ e, (Config.loadFile files (buildRouter macs o) path o.format).result = .error e

/-- The script in this file is asked for, and this router is there to carry it out. -/
def Scripted (files : Storage.Files) (macs : Nat → MacAddress) (o : Options) (path : String)
    (r : Router) : Prop :=
  Configured files macs o r ∧ o.dump = false ∧ o.script = some (.named path)

/-- The path leads to something that is there and is no text: a directory, a name that is too long
or bytes that do not decode. -/
def Unloadable (files : Storage.Files) (path : String) : Prop :=
  files (Storage.plainPath path) = .directory ∨ files (Storage.plainPath path) = .nameTooLong ∨
    ∃ fault, Storage.NotText files path fault

/-- The path is broken or leads to bytes that do not decode. -/
def Misread (files : Storage.Files) (path : String) : Prop :=
  files (Storage.plainPath path) = .nulInPath ∨ ∃ fault, Storage.NotText files path fault

/-- What a run meets and makes no exit code of. -/
inductive Unforeseen (files : Storage.Files) (macs : Nat → MacAddress) (o : Options) : Prop
  | configuration {path : String} : o.config = some (.named path) → Unloadable files path →
      Unforeseen files macs o
  | script {path : String} {r : Router} : Scripted files macs o path r → Misread files path →
      Unforeseen files macs o
  | line {path text file : String} {r : Router} {x : Shell.Exchange} {fault : Text.Utf8Fault} :
      Scripted files macs o path r → Storage.readText files path = .ok text →
      x ∈ scriptExchanges files r text → Text.words x.line = ["load", file] →
      Storage.NotText files file fault → Unforeseen files macs o

/-! ## The configuration -/

theorem not_unloadable_of_absent (h : Config.Absent files path) : ¬Unloadable files path := by
  rintro (hopened | hopened | ⟨fault, content, hopened, -⟩) <;>
    simp [Config.Absent, hopened] at h

theorem not_unloadable_of_text (h : Storage.readText files path = .ok text) :
    ¬Unloadable files path := by
  have hopened : ¬Storage.Unopened files path := by
    rw [← Storage.readText_fault_iff, h]
    rintro ⟨fault, hfault⟩
    cases hfault
  rintro (hd | hd | ⟨fault, hfault⟩)
  · exact hopened (by simp [Storage.Unopened, hd])
  · exact hopened (by simp [Storage.Unopened, hd])
  · rw [hfault.readText_eq] at h
    cases h

theorem refused_of_unloadable (hconfig : o.config = some (.named path))
    (h : Unloadable files path) : Refused files macs o path := by
  refine ⟨hconfig, ?_⟩
  have houtcome := Config.loadFile_outcome files (buildRouter macs o) path o.format
  generalize (Config.loadFile files (buildRouter macs o) path o.format).result = result
    at houtcome
  cases houtcome with
  | absent | nameTooLong | directory | notText => exact ⟨_, rfl⟩
  | text htext => exact absurd h (not_unloadable_of_text htext)

/-- The configuration stage refuses the file that it is given or goes on with a router. -/
theorem refused_or_configured (files : Storage.Files) (macs : Nat → MacAddress)
    (hconfig : o.config ≠ some .nothing) :
    (∃ path, Refused files macs o path) ∨ ∃ r, Configured files macs o r := by
  cases hc : o.config with
  | none =>
    refine .inr ⟨buildRouter macs o, ?_⟩
    simp only [Configured, configure, hc]
  | some choice =>
    cases choice with
    | nothing => exact absurd hc hconfig
    | named path =>
      cases hresult : (Config.loadFile files (buildRouter macs o) path o.format).result with
      | ok report =>
        refine .inr ⟨(Config.loadFile files (buildRouter macs o) path o.format).router, ?_⟩
        simp only [Configured, configure, hc, hresult]
      | error e => exact .inl ⟨path, hc, e, hresult⟩

/-- How a run ends whose configuration is refused: with an exit code, unless nobody expects it. -/
theorem configure_of_refused (h : Refused files macs o path) :
    ∃ ending, (configure files o (buildRouter macs o)).2 = .error ending ∧
      (ending = .exit exitConfiguration ∧ ¬Unloadable files path ∨
        (∃ crash, ending = .crash crash) ∧ Unloadable files path) := by
  obtain ⟨hconfig, e, hfailed⟩ := h
  have houtcome := Config.loadFile_outcome files (buildRouter macs o) path o.format
  generalize hresult : (Config.loadFile files (buildRouter macs o) path o.format).result = result
    at hfailed houtcome
  cases houtcome with
  | absent habsent =>
    simp only [configure, hconfig, hresult]
    exact ⟨_, rfl, .inl ⟨rfl, not_unloadable_of_absent habsent⟩⟩
  | nameTooLong hopened =>
    simp only [configure, hconfig, hresult]
    exact ⟨_, rfl, .inr ⟨⟨_, rfl⟩, .inr (.inl hopened)⟩⟩
  | directory hopened =>
    simp only [configure, hconfig, hresult]
    exact ⟨_, rfl, .inr ⟨⟨_, rfl⟩, .inl hopened⟩⟩
  | notText hfault =>
    simp only [configure, hconfig, hresult]
    exact ⟨_, rfl, .inr ⟨⟨_, rfl⟩, .inr (.inr ⟨_, hfault⟩)⟩⟩
  | text htext =>
    cases hload : (Config.load (buildRouter macs o) _ o.format).result with
    | ok report =>
      rw [hload] at hfailed
      cases hfailed
    | error failure =>
      -- The router is new, so nothing but the text is at fault.
      obtain ⟨-, error, rfl, -⟩ :=
        Config.located_of_load_error (Router.synced_new _ _) rfl hload
      rw [hload] at hresult
      change _ = Except.error (Config.FileError.load (.configuration error)) at hresult
      simp only [configure, hconfig, hresult]
      exact ⟨_, rfl, .inl ⟨rfl, not_unloadable_of_text htext⟩⟩

theorem Configured.not_refused (h : Configured files macs o r) : ¬Refused files macs o path := by
  intro hrefused
  obtain ⟨ending, hending, -⟩ := configure_of_refused hrefused
  cases h.symm.trans hending

theorem Configured.unique {r' : Router} (h : Configured files macs o r)
    (h' : Configured files macs o r') : r = r' :=
  Except.ok.inj (h.symm.trans h')

/-! ## The script -/

/-- A script that gives no text is not carried out. -/
theorem script_of_unread (h : ∀ text, Storage.readText files path ≠ .ok text) :
    (script files path r).output = "" ∧
      ((script files path r).ending = .exit exitScript ∧ Storage.Unopened files path ∨
        (∃ crash, (script files path r).ending = .crash crash) ∧ Misread files path) := by
  cases hread : Storage.readText files path with
  | ok text => exact absurd hread (h text)
  | error reason =>
    cases reason with
    | fault fault =>
      have hunopened := Storage.readText_fault_iff.mp ⟨fault, hread⟩
      refine ⟨?_, .inl ⟨?_, hunopened⟩⟩ <;> simp only [script, hread]
    | crash crash =>
      have hmisread : Misread files path := Storage.readText_crash_iff.mp ⟨crash, hread⟩
      refine ⟨?_, .inr ⟨⟨.reading crash, ?_⟩, hmisread⟩⟩ <;> simp only [script, hread]

theorem not_unopened_of_misread (h : Misread files path) : ¬Storage.Unopened files path := by
  rcases h with h | ⟨fault, content, h, -⟩ <;> simp [Storage.Unopened, h]

theorem not_misread_of_text (h : Storage.readText files path = .ok text) :
    ¬Misread files path := by
  intro hmisread
  obtain ⟨crash, hcrash⟩ := Storage.readText_crash_iff.mpr hmisread
  cases hcrash.symm.trans h

/-- A script ends as nobody expects if it cannot be decoded, or if a line that it reaches loads what
cannot be decoded. -/
theorem script_crash_iff :
    (∃ crash, (script files path r).ending = .crash crash) ↔
      Misread files path ∨
        ∃ text, Storage.readText files path = .ok text ∧
          ∃ x ∈ scriptExchanges files r text, ∃ file fault,
            Text.words x.line = ["load", file] ∧ Storage.NotText files file fault := by
  cases hread : Storage.readText files path with
  | ok text =>
    have hmisread := not_misread_of_text hread
    rw [(script_of_text hread).2.1]
    constructor
    · rintro ⟨x, hx, crash, hcrashed⟩
      rw [(Shell.of_mem_exchanges hx).2] at hcrashed
      obtain ⟨file, fault, hwords, hfault, -⟩ := Shell.dispatch_crashed_iff_words.mp hcrashed
      exact .inr ⟨text, rfl, x, hx, file, fault, hwords, hfault⟩
    · rintro (h | ⟨_, ⟨⟩, x, hx, file, fault, hwords, hfault⟩)
      · exact absurd h hmisread
      · refine ⟨x, hx, .notText fault, ?_⟩
        rw [(Shell.of_mem_exchanges hx).2]
        exact Shell.dispatch_crashed_iff_words.mpr ⟨file, fault, hwords, hfault, rfl⟩
  | error reason =>
    have hunread : ∀ text, Storage.readText files path ≠ .ok text := by simp [hread]
    rcases (script_of_unread (r := r) hunread).2 with ⟨hexit, hunopened⟩ | ⟨hcrash, hmisread⟩
    · have hread : ¬Misread files path := fun h => not_unopened_of_misread h hunopened
      simp [hexit, hread]
    · simp [hcrash, hmisread]

/-- A script that is not carried out, or not to its end, gives no other exit codes than one that
is. -/
theorem script_exit {code : Nat} (h : (script files path r).ending = .exit code) :
    code = exitSuccess ∨ code = exitScript := by
  cases hread : Storage.readText files path with
  | ok text =>
    obtain ⟨-, hcrash, hending⟩ := script_of_text (r := r) hread
    by_cases hcrashed : ∃ x ∈ scriptExchanges files r text, ∃ crash, x.result = .crashed crash
    · obtain ⟨crash, hcrash⟩ := hcrash.mpr hcrashed
      cases h.symm.trans hcrash
    · push Not at hcrashed
      obtain rfl := Ending.exit.inj (h.symm.trans (hending hcrashed))
      split <;> simp
  | error reason =>
    have hunread : ∀ text, Storage.readText files path ≠ .ok text := by simp [hread]
    rcases (script_of_unread (r := r) hunread).2 with ⟨hexit, -⟩ | ⟨⟨crash, hcrash⟩, -⟩
    · exact .inr (Ending.exit.inj (h.symm.trans hexit))
    · cases h.symm.trans hcrash

/-! ## The whole run -/

theorem Ending.exit_ne_crash {code : Nat} : ¬∃ crash, Ending.exit code = .crash crash := by
  rintro ⟨crash, h⟩
  cases h

theorem plan_of_error {ending : Ending}
    (h : (configure files o (buildRouter macs o)).2 = .error ending) :
    plan files macs o = .finished
      { ending := ending
        log := record .debug ("Starting router emulator " ++ o.name) ::
          (configure files o (buildRouter macs o)).1 } := by
  simp only [plan, h]

theorem run_of_error {ending : Ending}
    (h : (configure files o (buildRouter macs o)).2 = .error ending) (events : List Event) :
    (run files macs o events).ending = ending ∧ (run files macs o events).output = "" := by
  rw [run, plan_of_error h]
  exact ⟨rfl, rfl⟩

/-- A run whose configuration is refused comes to the same whatever else it was to do. -/
theorem run_of_refused (h : Refused files macs o path) (dump : Bool)
    (script : Option FileChoice) (events' : List Event) :
    run files macs { o with dump := dump, script := script } events' = run files macs o events := by
  obtain ⟨ending, hending, -⟩ := configure_of_refused h
  have hother : (configure files { o with dump := dump, script := script }
      (buildRouter macs { o with dump := dump, script := script })).2 = .error ending := hending
  rw [run, run, plan_of_error hending, plan_of_error hother]
  rfl

theorem run_of_dump (h : Configured files macs o r) (hdump : o.dump = true) :
    (run files macs o events).ending = .exit exitSuccess := by
  have hconfigured : (configure files o (buildRouter macs o)).2 = .ok r := h
  simp only [run, plan, hconfigured, hdump, if_true]

theorem run_of_scripted (h : Scripted files macs o path r) (events : List Event) :
    (run files macs o events).ending = (script files path r).ending ∧
      (run files macs o events).output = (script files path r).output := by
  obtain ⟨hconfigured, hdump, hscript⟩ := h
  have hok : (configure files o (buildRouter macs o)).2 = .ok r := hconfigured
  simp only [run, plan, hok, hdump, hscript]
  exact ⟨rfl, rfl⟩

/-- Once the configuration is loaded, a run that opens no session dumps or carries out a script. -/
theorem Configured.dump_or_scripted (h : Configured files macs o r)
    (hscript : o.script ≠ some .nothing) (hbatch : o.dump = true ∨ o.script ≠ none) :
    o.dump = true ∨ ∃ path, Scripted files macs o path r := by
  cases hd : o.dump with
  | true => exact .inl rfl
  | false =>
    cases hs : o.script with
    | none => simp [hd, hs] at hbatch
    | some choice =>
      cases choice with
      | nothing => exact absurd hs hscript
      | named path => exact .inr ⟨path, h, hd, hs⟩

theorem Refused.run_crash_iff (h : Refused files macs o path) (events : List Event) :
    (∃ crash, (run files macs o events).ending = .crash crash) ↔ Unforeseen files macs o := by
  obtain ⟨ending, hending, hway⟩ := configure_of_refused h
  rw [(run_of_error hending events).1]
  rcases hway with ⟨rfl, hloadable⟩ | ⟨hcrash, hunloadable⟩
  · refine iff_of_false Ending.exit_ne_crash fun hmet => ?_
    cases hmet with
    | configuration hc hunloadable =>
      cases h.1.symm.trans hc
      exact hloadable hunloadable
    | script hs | line hs => exact hs.1.not_refused h
  · exact iff_of_true hcrash (.configuration h.1 hunloadable)

/-- Once the configuration is loaded, only a script can meet something unforeseen. -/
theorem Configured.unforeseen_iff (h : Configured files macs o r) :
    Unforeseen files macs o ↔
      ∃ path, Scripted files macs o path r ∧
        ∃ crash, (script files path r).ending = .crash crash := by
  simp only [script_crash_iff]
  constructor
  · intro hmet
    cases hmet with
    | configuration hc hunloadable =>
      exact absurd (refused_of_unloadable hc hunloadable) h.not_refused
    | script hs hmisread =>
      obtain rfl := hs.1.unique h
      exact ⟨_, hs, .inl hmisread⟩
    | line hs hread hx hwords hfault =>
      obtain rfl := hs.1.unique h
      exact ⟨_, hs, .inr ⟨_, hread, _, hx, _, _, hwords, hfault⟩⟩
  · rintro ⟨path, hs, hmisread | ⟨text, hread, x, hx, file, fault, hwords, hfault⟩⟩
    · exact .script hs hmisread
    · exact .line hs hread hx hwords hfault

/-- A run that opens no session ends as nobody expects exactly if it meets something unforeseen. -/
theorem run_crash_iff (hconfig : o.config ≠ some .nothing) (hscript : o.script ≠ some .nothing)
    (hbatch : o.dump = true ∨ o.script ≠ none) :
    (∃ crash, (run files macs o events).ending = .crash crash) ↔ Unforeseen files macs o := by
  rcases refused_or_configured files macs hconfig with ⟨path, hrefused⟩ | ⟨r, hconfigured⟩
  · exact hrefused.run_crash_iff events
  rw [hconfigured.unforeseen_iff]
  rcases hconfigured.dump_or_scripted hscript hbatch with hdump | ⟨path, hscripted⟩
  · rw [run_of_dump hconfigured hdump]
    refine iff_of_false Ending.exit_ne_crash ?_
    rintro ⟨path, hscripted, -⟩
    cases hdump.symm.trans hscripted.2.1
  · rw [(run_of_scripted hscripted events).1]
    refine ⟨fun hcrash => ⟨path, hscripted, hcrash⟩, ?_⟩
    rintro ⟨path', hscripted', hcrash⟩
    cases hscripted.2.2.symm.trans hscripted'.2.2
    exact hcrash

theorem run_exit (hconfig : o.config ≠ some .nothing) (hscript : o.script ≠ some .nothing)
    (hbatch : o.dump = true ∨ o.script ≠ none) {code : Nat}
    (h : (run files macs o events).ending = .exit code) : code ∈ [0, 1, 2] := by
  rcases refused_or_configured files macs hconfig with ⟨path, hrefused⟩ | ⟨r, hconfigured⟩
  · obtain ⟨ending, hending, hway⟩ := configure_of_refused hrefused
    rw [(run_of_error hending events).1] at h
    rcases hway with ⟨rfl, -⟩ | ⟨⟨crash, rfl⟩, -⟩
    · cases h
      decide
    · cases h
  · rcases hconfigured.dump_or_scripted hscript hbatch with hdump | ⟨path, hscripted⟩
    · cases h.symm.trans (run_of_dump hconfigured hdump)
      decide
    · rw [(run_of_scripted hscripted events).1] at h
      rcases script_exit h with rfl | rfl <;> decide

/-- A run that opens no session gives 0, 1 or 2 unless it meets something unforeseen. One whose
configuration is refused prints nothing and comes to the same whether it was to dump or to carry out
a script; it gives 1, unless the configuration is there and is no text. One whose script gives no
text prints nothing either, and gives 2 exactly if the script does not open. -/
theorem failures_become_exit_codes (files : Storage.Files) (macs : Nat → MacAddress) (o : Options)
    (events : List Event) (hconfig : o.config ≠ some .nothing)
    (hscript : o.script ≠ some .nothing) (hbatch : o.dump = true ∨ o.script ≠ none) :
    let program := run files macs o events
    ((∃ crash, program.ending = .crash crash) ↔ Unforeseen files macs o) ∧
      (∀ code, program.ending = .exit code → code ∈ [0, 1, 2]) ∧
      (∀ path, Refused files macs o path →
        program.output = "" ∧
          (∀ dump script events',
            run files macs { o with dump := dump, script := script } events' = program) ∧
          (program.ending = .exit 1 ↔ ¬Unloadable files path)) ∧
      ∀ path r, Scripted files macs o path r → (∀ text, Storage.readText files path ≠ .ok text) →
        program.output = "" ∧ (program.ending = .exit 2 ↔ Storage.Unopened files path) := by
  intro program
  refine ⟨run_crash_iff hconfig hscript hbatch, fun code => run_exit hconfig hscript hbatch,
    fun path hrefused => ?_, fun path r hscripted hunread => ?_⟩
  · obtain ⟨ending, hending, hway⟩ := configure_of_refused hrefused
    obtain ⟨hends, houtput⟩ := run_of_error hending events
    refine ⟨houtput, run_of_refused hrefused, ?_⟩
    rw [hends]
    rcases hway with ⟨rfl, hloadable⟩ | ⟨⟨crash, rfl⟩, hunloadable⟩
    · exact iff_of_true rfl hloadable
    · exact iff_of_false nofun (not_not.mpr hunloadable)
  · obtain ⟨hends, houtput⟩ := run_of_scripted hscripted events
    obtain ⟨hempty, hway⟩ := script_of_unread (r := r) hunread
    refine ⟨houtput.trans hempty, ?_⟩
    rw [hends]
    rcases hway with ⟨hexit, hunopened⟩ | ⟨⟨crash, hcrash⟩, hmisread⟩
    · exact iff_of_true hexit hunopened
    · exact iff_of_false (by rw [hcrash]; nofun) (not_unopened_of_misread hmisread)

/-- A missing configuration gives 1, and the script that was named is not read. -/
theorem failures_become_exit_codes_of_missing :
    let files : Storage.Files := fun path => if path = "s" then .bytes [0xFF] else .missing
    let macs : Nat → MacAddress := fun _ => ⟨.replicate 6 2⟩
    let o : Options := { config := some (.named "c"), script := some (.named "s") }
    (run files macs o []).ending = .exit 1 ∧ (run files macs o []).output = "" ∧
      ¬Unforeseen files macs o ∧
      run files macs { o with dump := true, script := none } [] = run files macs o [] := by
  intro files macs o
  have hrefused : Refused files macs o "c" := ⟨rfl, _, rfl⟩
  obtain ⟨hcrash, -, hconfiguration, -⟩ := failures_become_exit_codes files macs o []
    (by decide) (by decide) (by decide)
  obtain ⟨houtput, hsame, -⟩ := hconfiguration "c" hrefused
  have hexit : (run files macs o []).ending = .exit 1 := by decide +kernel
  refine ⟨hexit, houtput, fun h => ?_, hsame true none []⟩
  obtain ⟨crash, h⟩ := hcrash.mpr h
  cases hexit.symm.trans h

/-- A configuration that is a directory, or whose bytes are no text, and a script whose bytes are no
text give no exit code. -/
theorem failures_without_exit_code :
    let macs : Nat → MacAddress := fun _ => ⟨.replicate 6 2⟩
    let dumping : Options := { config := some (.named "f"), dump := true }
    let scripted : Options := { script := some (.named "f") }
    let noText : Storage.Crash := .notText ⟨.invalidStart, 0xFF, 0, 1⟩
    (run (fun _ => .directory) macs dumping []).ending = .crash (.file (.isDirectory "f")) ∧
      (run (fun _ => .bytes [0xFF]) macs dumping []).ending = .crash (.reading noText) ∧
      (run (fun _ => .bytes [0xFF]) macs scripted []).ending = .crash (.reading noText) := by
  decide +kernel

end RouterConsole.Startup
