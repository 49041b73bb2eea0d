import RouterConsole.Config.File
import RouterConsole.Proofs.Config.Atomic
import RouterConsole.Proofs.Storage.Reading

/-!
# Loading files

A file that cannot be read changes nothing, and one that can is loaded as its text is. How a load
that reads nothing fails is settled by what stands at the path.
-/
namespace RouterConsole.Config

variable {files : Storage.Files} {r : Router}

theorem loadFile_unchanged (hs : r.Synced) {path : String} {format? : Option Format}
    {e : FileError} (h : (loadFile files r path format?).result = .error e) :
    (loadFile files r path format?).router = r := by
  unfold loadFile at h ⊢
  dsimp only at h ⊢
  split
  · rfl
  · split
    · rfl
    · rename_i hmissing _ text hread
      simp only [hmissing, hread] at h
      cases hr : (load r text format?).result with
      | ok report =>
        rw [hr] at h
        cases h
      | error failure => exact load_unchanged hs hr

theorem leadsTo_loadFile (files : Storage.Files) (r : Router) (path : String)
    (format? : Option Format) : r.LeadsTo (loadFile files r path format?).router := by
  unfold loadFile
  dsimp only
  split
  · exact .refl r
  · split
    · exact .refl r
    · exact leadsTo_load r _ format?

/-- The path leads to no file at all. -/
def Absent (files : Storage.Files) (path : String) : Prop :=
  files (Storage.plainPath path) ∈ [Storage.Opened.missing, .notDirectory, .nulInPath]

/-- What loading a file can come to. -/
inductive FileOutcome (files : Storage.Files) (r : Router) (path : String)
    (format? : Option Format) : Except FileError Report → Prop
  | absent : Absent files path → FileOutcome files r path format?
      (.error (.unreadable (.fault (.noConfiguration (Storage.plainPath path)))))
  | nameTooLong : files (Storage.plainPath path) = .nameTooLong →
      FileOutcome files r path format?
        (.error (.unreadable (.fault (.nameTooLong (Storage.plainPath path)))))
  | directory : files (Storage.plainPath path) = .directory →
      FileOutcome files r path format?
        (.error (.unreadable (.fault (.isDirectory (Storage.plainPath path)))))
  | notText {fault : Text.Utf8Fault} : Storage.NotText files path fault →
      FileOutcome files r path format? (.error (.unreadable (.crash (.notText fault))))
  | text {text : String} : Storage.readText files path = .ok text →
      FileOutcome files r path format? ((load r text format?).result.mapError .load)

theorem loadFile_outcome (files : Storage.Files) (r : Router) (path : String)
    (format? : Option Format) :
    FileOutcome files r path format? (loadFile files r path format?).result := by
  cases ho : files (Storage.plainPath path) with
  | missing | notDirectory | nulInPath =>
    simp only [loadFile, missingConfiguration, ho]
    exact .absent (by simp [Absent, ho])
  | nameTooLong =>
    simp only [loadFile, missingConfiguration, ho]
    exact .nameTooLong ho
  | directory =>
    simp only [loadFile, missingConfiguration, Storage.readText, ho]
    exact .directory ho
  | bytes content =>
    have hmissing : missingConfiguration files (Storage.plainPath path) = none := by
      simp only [missingConfiguration, ho]
    have hreads := Storage.readText_reads files path
    cases hr : Storage.readText files path with
    | ok text =>
      simp only [loadFile, hmissing, hr]
      exact .text hr
    | error reason =>
      rw [hr] at hreads
      simp only [loadFile, hmissing, hr]
      cases hreads with
      | notText hfault => exact .notText hfault
      | brokenPath hpath => rw [ho] at hpath; cases hpath
      | unopened fault hopened => simp [Storage.Unopened, ho] at hopened

/-- Only bytes that are no text end a load as nobody expects. -/
theorem loadFile_crash_iff {path : String} {format? : Option Format} {crash : Storage.Crash} :
    (loadFile files r path format?).result = .error (.unreadable (.crash crash)) ↔
      ∃ fault, Storage.NotText files path fault ∧ crash = .notText fault := by
  constructor
  · intro h
    have houtcome := loadFile_outcome files r path format?
    generalize (loadFile files r path format?).result = result at h houtcome
    cases houtcome with
    | absent | nameTooLong | directory => cases h
    | notText hfault =>
      cases h
      exact ⟨_, hfault, rfl⟩
    | @text text =>
      cases hload : (load r text format?).result <;> rw [hload] at h <;> cases h
  · rintro ⟨fault, h, rfl⟩
    have hmissing : missingConfiguration files (Storage.plainPath path) = none := by
      obtain ⟨content, ho, -⟩ := h
      simp only [missingConfiguration, ho]
    simp only [loadFile, hmissing, h.readText_eq]

end RouterConsole.Config
