import RouterConsole.Storage.Files

/-!
# What reading a file comes to

A file gives a text or one of two kinds of failure, and which of the three it is depends only on
what opening the plain form of its path yields: the bytes of a text, bytes that are no text, or no
bytes at all.
-/
namespace RouterConsole.Storage

variable {files : Files} {path : String}

/-- The path leads to bytes that do not decode, and this is the first fault in them. -/
def NotText (files : Files) (path : String) (fault : Text.Utf8Fault) : Prop :=
  ∃ content, files (plainPath path) = .bytes content ∧ Text.decodeUtf8 content = .error fault

/-- The path leads to no bytes, and not because the path itself is broken. -/
def Unopened (files : Files) (path : String) : Prop :=
  files (plainPath path) ∈ [Opened.directory, .missing, .notDirectory, .nameTooLong]

theorem readText_of_bytes {content : List UInt8} (h : files (plainPath path) = .bytes content) :
    readText files path = (textOf content).mapError .crash := by
  simp only [readText, h]

theorem readText_of_brokenPath (h : files (plainPath path) = .nulInPath) :
    readText files path = .error (.crash .nulInPath) := by
  simp only [readText, h]

theorem NotText.readText_eq {fault : Text.Utf8Fault} (h : NotText files path fault) :
    readText files path = .error (.crash (.notText fault)) := by
  obtain ⟨content, ho, hd⟩ := h
  rw [readText_of_bytes ho, textOf, hd]
  rfl

/-- What reading a file can come to. -/
inductive Reads (files : Files) (path : String) : Except Unreadable String → Prop
  | text {content : List UInt8} (text : String) : files (plainPath path) = .bytes content →
      Reads files path (.ok text)
  | notText {fault : Text.Utf8Fault} : NotText files path fault →
      Reads files path (.error (.crash (.notText fault)))
  | brokenPath : files (plainPath path) = .nulInPath →
      Reads files path (.error (.crash .nulInPath))
  | unopened (fault : Fault) : Unopened files path → Reads files path (.error (.fault fault))

theorem readText_reads (files : Files) (path : String) :
    Reads files path (readText files path) := by
  cases ho : files (plainPath path) with
  | bytes content =>
    cases hd : Text.decodeUtf8 content with
    | error fault =>
      have hfault : NotText files path fault := ⟨content, ho, hd⟩
      rw [hfault.readText_eq]
      exact .notText hfault
    | ok cs =>
      rw [readText_of_bytes ho, textOf, hd]
      exact .text _ ho
  | nulInPath =>
    rw [readText_of_brokenPath ho]
    exact .brokenPath ho
  | directory | missing | notDirectory | nameTooLong =>
    simp only [readText, ho]
    exact .unopened _ (by simp [Unopened, ho])

/-- A reading fails as nobody expects exactly if the bytes are no text or the path is broken. -/
theorem readText_crash_iff : (∃ crash, readText files path = .error (.crash crash)) ↔
    files (plainPath path) = .nulInPath ∨ ∃ fault, NotText files path fault := by
  constructor
  · rintro ⟨crash, h⟩
    have hreads := readText_reads files path
    rw [h] at hreads
    cases hreads with
    | notText hfault => exact .inr ⟨_, hfault⟩
    | brokenPath hpath => exact .inl hpath
  · rintro (h | ⟨fault, h⟩)
    · exact ⟨_, readText_of_brokenPath h⟩
    · exact ⟨_, h.readText_eq⟩

/-- A reading fails in a way that can be reported exactly if the path leads to no bytes. -/
theorem readText_fault_iff :
    (∃ fault, readText files path = .error (.fault fault)) ↔ Unopened files path := by
  have hreads := readText_reads files path
  constructor
  · rintro ⟨fault, h⟩
    rw [h] at hreads
    cases hreads with
    | unopened _ hopened => exact hopened
  · intro hopened
    cases hr : readText files path with
    | ok text =>
      rw [hr] at hreads
      cases hreads with
      | text _ ho => simp [Unopened, ho] at hopened
    | error reason =>
      rw [hr] at hreads
      cases hreads with
      | notText hfault =>
        obtain ⟨content, ho, -⟩ := hfault
        simp [Unopened, ho] at hopened
      | brokenPath ho => simp [Unopened, ho] at hopened
      | unopened fault => exact ⟨fault, rfl⟩

end RouterConsole.Storage
