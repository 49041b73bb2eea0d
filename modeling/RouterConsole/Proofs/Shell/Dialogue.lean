import RouterConsole.Proofs.Config.Tokens
import RouterConsole.Proofs.Shell.Endings
import RouterConsole.Shell.Script
import RouterConsole.Shell.Session

/-!
# Dialogues

A script and an interactive session do the same with the lines that they carry out: each is
dispatched to the router that the one before it left, until one of them is the last. Here that
dialogue is defined apart from both, and either loop is shown to write one down. The two pass over
different lines and show a line in different spellings; that the words alone decide what a line
comes to, and that a comment calls no command, makes them agree.
-/
namespace RouterConsole.Shell

variable {files : Storage.Files} {r : Router} {line : String} {lines : List String}

/-- Whether no line is read after one with this result. -/
def Result.isLast : Result → Bool
  | .left | .crashed _ => true
  | .done | .presented _ => false

theorem Result.isFailure_of_isLast {result : Result} (h : result.isLast = true) :
    result.isFailure = false := by
  cases result with
  | left | crashed => rfl
  | done | presented => cases h

/-- The crash of a result, if it is one. -/
def Result.crash? : Result → Option Storage.Crash
  | .crashed crash => some crash
  | .done | .presented _ | .left => none

theorem Result.crash?_eq_some_iff {result : Result} {crash : Storage.Crash} :
    result.crash? = some crash ↔ result = .crashed crash := by
  cases result <;> simp [crash?]

theorem Result.crash?_of_next {result : Result} (h : result.isLast = false) :
    result.crash? = none := by
  cases result with
  | done | presented | left => rfl
  | crashed => cases h

/-- A line that was dispatched, the router that it met and what it came to. -/
structure Exchange where
  router : Router
  line : String
  output : String
  result : Result

/-- The line as a script shows it: trimmed, after the prompt. -/
def Exchange.echo (x : Exchange) : String :=
  Command.line (x.router.prompt ++ Text.trimmed x.line)

/-- What was said, the router after it, and whether a line was the last. -/
structure Dialogue where
  exchanges : List Exchange := []
  router : Router
  ended : Bool := false

/-- The lines dispatched in order, up to the first that is the last. -/
def dialogue (files : Storage.Files) (r : Router) : List String → Dialogue
  | [] => { router := r }
  | line :: lines =>
    let d := dispatch files r line
    let x : Exchange := ⟨r, line, d.output, d.result⟩
    if d.result.isLast then { exchanges := [x], router := d.router, ended := true }
    else
      let rest := dialogue files d.router lines
      { rest with exchanges := x :: rest.exchanges }

/-- Whether a line starts, after its blanks, with the sign that opens a comment. -/
def IsComment (line : String) : Prop := (Text.trimmed line).toList.head? = some '#'

/-- The lines that a session dispatches: all that hold a word. -/
def spoken (lines : List String) : List String := lines.filter (Text.words · ≠ [])

/-- The lines that a script dispatches: all that hold a word and are no comment. -/
def commandLines (lines : List String) : List String :=
  lines.filter (Config.isSignificant ·.toList)

/-! ## What the words of a line decide -/

/-- Lines with the same words come to the same. -/
theorem dispatch_congr {line line' : String} (h : Text.words line = Text.words line') :
    (dispatch files r line).router = (dispatch files r line').router ∧
      (dispatch files r line).output = (dispatch files r line').output ∧
      (dispatch files r line).result = (dispatch files r line').result :=
  (Command.registry files).dispatch_congr h r

theorem isComment_iff_words : IsComment line ↔
    ∃ w ws, Text.words line = w :: ws ∧ w.toList.head? = some '#' := by
  rw [IsComment, Text.trimmed, String.toList_ofList, ← Config.head?_splitWords, Text.words]
  cases Text.splitWords line.toList <;> simp

theorem isSignificant_iff_words : Config.isSignificant line.toList = true ↔
    Text.words line ≠ [] ∧ ¬IsComment line := by
  rw [Config.isSignificant_iff, isComment_iff_words, Text.words]
  cases Text.splitWords line.toList <;> simp

theorem dispatch_comment (files : Storage.Files) (r : Router) (h : IsComment line) :
    (dispatch files r line).router = r ∧
      (dispatch files r line).output = notRecognized ++ "\n" ∧
      (dispatch files r line).result = .presented ⟨notRecognized, .error⟩ := by
  obtain ⟨w, ws, hwords, hw⟩ := isComment_iff_words.mp h
  apply dispatch_of_not_called
  rw [Command.called?_eq, hwords, Command.calledBy_of_comment hw]

/-! ## Dialogues -/

theorem dialogue_of_last (h : (dispatch files r line).result.isLast = true) :
    dialogue files r (line :: lines) =
      { exchanges := [⟨r, line, (dispatch files r line).output, (dispatch files r line).result⟩]
        router := (dispatch files r line).router
        ended := true } := by
  simp only [dialogue, h, if_true]

theorem dialogue_of_next (h : (dispatch files r line).result.isLast = false) :
    dialogue files r (line :: lines) =
      { dialogue files (dispatch files r line).router lines with
        exchanges := ⟨r, line, (dispatch files r line).output, (dispatch files r line).result⟩ ::
          (dialogue files (dispatch files r line).router lines).exchanges } := by
  simp only [dialogue, h, Bool.false_eq_true, if_false]

/-- An exchange is the dispatch of one of the lines. -/
theorem of_mem_exchanges {x : Exchange} (h : x ∈ (dialogue files r lines).exchanges) :
    x.line ∈ lines ∧ x.result = (dispatch files x.router x.line).result := by
  induction lines generalizing r with
  | nil => exact absurd h List.not_mem_nil
  | cons line lines ih =>
    cases hl : (dispatch files r line).result.isLast with
    | true =>
      rw [dialogue_of_last hl, List.mem_singleton] at h
      subst h
      exact ⟨List.mem_cons_self, rfl⟩
    | false =>
      rw [dialogue_of_next hl] at h
      rcases List.mem_cons.mp h with rfl | h
      · exact ⟨List.mem_cons_self, rfl⟩
      · exact ⟨List.mem_cons_of_mem line (ih h).1, (ih h).2⟩

/-- A dialogue goes on where its lines ended, unless one of them was the last. -/
theorem dialogue_append (h : (dialogue files r lines).ended = false) (more : List String) :
    dialogue files r (lines ++ more) =
      { dialogue files (dialogue files r lines).router more with
        exchanges := (dialogue files r lines).exchanges ++
          (dialogue files (dialogue files r lines).router more).exchanges } := by
  induction lines generalizing r with
  | nil => rfl
  | cons line lines ih =>
    cases hl : (dispatch files r line).result.isLast with
    | true =>
      rw [dialogue_of_last hl] at h
      cases h
    | false =>
      rw [dialogue_of_next hl] at h
      rw [List.cons_append, dialogue_of_next hl, ih h, dialogue_of_next hl]
      rfl

/-! ## Lines that are passed over -/

theorem spoken_blank (h : Text.words line = []) : spoken (line :: lines) = spoken lines :=
  List.filter_cons_of_neg (by simp [h])

theorem spoken_cons (h : Text.words line ≠ []) : spoken (line :: lines) = line :: spoken lines :=
  List.filter_cons_of_pos (by simp [h])

theorem commandLines_passed (h : Config.isSignificant line.toList = false) :
    commandLines (line :: lines) = commandLines lines :=
  List.filter_cons_of_neg (by simp [h])

theorem commandLines_cons (h : Config.isSignificant line.toList = true) :
    commandLines (line :: lines) = line :: commandLines lines :=
  List.filter_cons_of_pos h

theorem spoken_eq_commandLines (h : ∀ line ∈ lines, ¬IsComment line) :
    spoken lines = commandLines lines := by
  apply List.filter_congr
  intro line hline
  rw [Bool.eq_iff_iff, isSignificant_iff_words, decide_eq_true_iff]
  exact ⟨fun hwords => ⟨hwords, h line hline⟩, And.left⟩

/-- Comments that are said change nothing for the router. -/
theorem dialogue_spoken (files : Storage.Files) (r : Router) (lines : List String) :
    (dialogue files r (spoken lines)).router =
      (dialogue files r (commandLines lines)).router := by
  induction lines generalizing r with
  | nil => rfl
  | cons line lines ih =>
    by_cases hwords : Text.words line = []
    · have hs : Config.isSignificant line.toList = false := by
        simp [← Bool.not_eq_true, isSignificant_iff_words, hwords]
      rw [spoken_blank hwords, commandLines_passed hs]
      exact ih r
    rw [spoken_cons hwords]
    by_cases hcomment : IsComment line
    · have hs : Config.isSignificant line.toList = false := by
        simp [← Bool.not_eq_true, isSignificant_iff_words, hcomment]
      obtain ⟨hrouter, -, hresult⟩ := dispatch_comment files r hcomment
      rw [commandLines_passed hs, dialogue_of_next (by rw [hresult]; rfl), hrouter]
      exact ih r
    · rw [commandLines_cons (isSignificant_iff_words.mpr ⟨hwords, hcomment⟩)]
      cases hl : (dispatch files r line).result.isLast with
      | true => rw [dialogue_of_last hl, dialogue_of_last hl]
      | false =>
        rw [dialogue_of_next hl, dialogue_of_next hl]
        exact ih _

/-! ## The two loops -/

/-- A run of a script that writes down this dialogue: every line is shown before its output, and
the failures are counted. -/
structure ScriptRun.Records (s : ScriptRun) (d : Dialogue) : Prop where
  router : s.router = d.router
  output : s.output = String.join (d.exchanges.map fun x => x.echo ++ x.output)
  failures : s.failures = d.exchanges.countP (·.result.isFailure)
  crash : ∀ crash, s.crash = some crash ↔ ∃ x ∈ d.exchanges, x.result = .crashed crash

/-- A session that writes down this dialogue: only the output is shown, and if the input ends
before the session does, a line feed. -/
structure Session.Records (s : Session) (d : Dialogue) : Prop where
  router : s.router = d.router
  output : s.output =
    String.join (d.exchanges.map (·.output)) ++ if d.ended then "" else "\n"

theorem dispatch_trimmed (files : Storage.Files) (r : Router) (line : String) :
    (dispatch files r (Text.trimmed line)).router = (dispatch files r line).router ∧
      (dispatch files r (Text.trimmed line)).output = (dispatch files r line).output ∧
      (dispatch files r (Text.trimmed line)).result = (dispatch files r line).result :=
  dispatch_congr (Text.words_trimmed line)

theorem runLines_passed (h : Config.isSignificant line.toList = false) :
    runLines files r (line :: lines) = runLines files r lines := by
  simp only [runLines, h, Bool.not_false, if_true]

theorem runLines_of_last (hs : Config.isSignificant line.toList = true)
    (hl : (dispatch files r line).result.isLast = true) (lines : List String) :
    runLines files r (line :: lines) =
      { router := (dispatch files r line).router
        output := Command.line (r.prompt ++ Text.trimmed line) ++ (dispatch files r line).output
        log := (dispatch files r (Text.trimmed line)).log
        crash := (dispatch files r line).result.crash? } := by
  obtain ⟨hrouter, houtput, hresult⟩ := dispatch_trimmed files r line
  simp only [runLines, hs, Bool.not_true, Bool.false_eq_true, if_false, hrouter, houtput, hresult]
  cases hd : (dispatch files r line).result with
  | left | crashed => rfl
  | done | presented =>
    rw [hd] at hl
    cases hl

theorem runLines_of_next (hs : Config.isSignificant line.toList = true)
    (hl : (dispatch files r line).result.isLast = false) (lines : List String) :
    runLines files r (line :: lines) =
      { runLines files (dispatch files r line).router lines with
        output := Command.line (r.prompt ++ Text.trimmed line) ++
          (dispatch files r line).output ++
          (runLines files (dispatch files r line).router lines).output
        log := (dispatch files r (Text.trimmed line)).log ++
          (runLines files (dispatch files r line).router lines).log
        failures := (runLines files (dispatch files r line).router lines).failures +
          if (dispatch files r line).result.isFailure then 1 else 0 } := by
  obtain ⟨hrouter, houtput, hresult⟩ := dispatch_trimmed files r line
  simp only [runLines, hs, Bool.not_true, Bool.false_eq_true, if_false, hrouter, houtput, hresult]
  cases hd : (dispatch files r line).result with
  | done | presented => rfl
  | left | crashed =>
    rw [hd] at hl
    cases hl

theorem runLines_records (files : Storage.Files) (r : Router) (lines : List String) :
    (runLines files r lines).Records (dialogue files r (commandLines lines)) := by
  induction lines generalizing r with
  | nil => exact ⟨rfl, rfl, rfl, by simp [runLines, commandLines, dialogue]⟩
  | cons line lines ih =>
    cases hs : Config.isSignificant line.toList with
    | false =>
      rw [runLines_passed hs, commandLines_passed hs]
      exact ih r
    | true =>
      rw [commandLines_cons hs]
      cases hl : (dispatch files r line).result.isLast with
      | true =>
        rw [dialogue_of_last hl, runLines_of_last hs hl]
        refine ⟨rfl, ?_, ?_, fun crash => ?_⟩
        · simp [Exchange.echo]
        · simp [Result.isFailure_of_isLast hl]
        · simp [Result.crash?_eq_some_iff]
      | false =>
        obtain ⟨hrouter, houtput, hfailures, hcrash⟩ := ih (dispatch files r line).router
        rw [dialogue_of_next hl, runLines_of_next hs hl]
        refine ⟨hrouter, ?_, ?_, fun crash => ?_⟩
        · simp [houtput, Exchange.echo, String.append_assoc]
        · simp [hfailures, List.countP_cons]
        · have hfirst : (dispatch files r line).result ≠ .crashed crash := by
            rw [Ne, ← Result.crash?_eq_some_iff, Result.crash?_of_next hl]
            nofun
          simp [hcrash, hfirst]

theorem react_blank (h : Text.words line = []) : react files r (.line line) = { router := r } :=
  if_pos h

theorem react_of_last (hw : Text.words line ≠ [])
    (hl : (dispatch files r line).result.isLast = true) :
    react files r (.line line) =
      { router := (dispatch files r line).router
        output := (dispatch files r line).output
        log := (dispatch files r line).log
        next := .error (dispatch files r line).result.crash? } := by
  simp only [react, if_neg hw]
  cases hd : (dispatch files r line).result with
  | left | crashed => rfl
  | done | presented =>
    rw [hd] at hl
    cases hl

theorem react_of_next (hw : Text.words line ≠ [])
    (hl : (dispatch files r line).result.isLast = false) :
    react files r (.line line) =
      { router := (dispatch files r line).router
        output := (dispatch files r line).output
        log := (dispatch files r line).log } := by
  simp only [react, if_neg hw]
  cases hd : (dispatch files r line).result with
  | done | presented => rfl
  | left | crashed =>
    rw [hd] at hl
    cases hl

theorem runEvents_records (files : Storage.Files) (r : Router) (lines : List String) :
    (runEvents files r (lines.map .line)).Records (dialogue files r (spoken lines)) := by
  induction lines generalizing r with
  | nil => exact ⟨rfl, rfl⟩
  | cons line lines ih =>
    by_cases hw : Text.words line = []
    · obtain ⟨hrouter, houtput⟩ := ih r
      rw [spoken_blank hw, List.map_cons, runEvents, react_blank hw]
      exact ⟨hrouter, by simpa using houtput⟩
    · rw [spoken_cons hw, List.map_cons, runEvents]
      cases hl : (dispatch files r line).result.isLast with
      | true =>
        rw [dialogue_of_last hl, react_of_last hw hl]
        refine ⟨rfl, ?_⟩
        simp [runEvents.close]
      | false =>
        obtain ⟨hrouter, houtput⟩ := ih (dispatch files r line).router
        rw [dialogue_of_next hl, react_of_next hw hl]
        exact ⟨hrouter, by simp [houtput, String.append_assoc]⟩

/-! ## Where the loops stop -/

/-- Whether a run that has read these lines does not read what follows them. -/
def Stopped {α : Type} (run : List String → α) (read : List String) : Prop :=
  ∀ more, run (read ++ more) = run read

theorem runLines_append_of_ended (h : (dialogue files r (commandLines lines)).ended = true)
    (more : List String) : runLines files r (lines ++ more) = runLines files r lines := by
  induction lines generalizing r with
  | nil => cases h
  | cons line lines ih =>
    rw [List.cons_append]
    cases hs : Config.isSignificant line.toList with
    | false =>
      rw [commandLines_passed hs] at h
      rw [runLines_passed hs, runLines_passed hs, ih h]
    | true =>
      rw [commandLines_cons hs] at h
      cases hl : (dispatch files r line).result.isLast with
      | true => rw [runLines_of_last hs hl, runLines_of_last hs hl]
      | false =>
        rw [dialogue_of_next hl] at h
        rw [runLines_of_next hs hl, runLines_of_next hs hl, ih h]

theorem runEvents_append_of_ended (h : (dialogue files r (spoken lines)).ended = true)
    (more : List String) :
    runEvents files r ((lines ++ more).map .line) = runEvents files r (lines.map .line) := by
  induction lines generalizing r with
  | nil => cases h
  | cons line lines ih =>
    rw [List.cons_append, List.map_cons, List.map_cons, runEvents, runEvents]
    by_cases hw : Text.words line = []
    · rw [spoken_blank hw] at h
      rw [react_blank hw, ih h]
    · rw [spoken_cons hw] at h
      cases hl : (dispatch files r line).result.isLast with
      | true => rw [react_of_last hw hl]
      | false =>
        rw [dialogue_of_next hl] at h
        rw [react_of_next hw hl, ih h]

/-- The dialogue of a line that calls nothing. -/
theorem dialogue_unknown (files : Storage.Files) (r : Router) :
    dialogue files r ["?"] =
      { exchanges := [⟨r, "?", notRecognized ++ "\n", .presented ⟨notRecognized, .error⟩⟩]
        router := r } := by
  have hcall : (Command.registry files).called? "?" = none := by
    rw [Command.called?_eq]
    decide +kernel
  obtain ⟨hrouter, houtput, hresult⟩ := dispatch_of_not_called (r := r) hcall
  rw [dialogue_of_next (by rw [hresult]; rfl), hrouter, houtput, hresult]
  rfl

/-- What is written grows when a line that calls nothing is added to a dialogue that goes on. -/
theorem join_exchanges_unknown (h : (dialogue files r lines).ended = false)
    (show? : Exchange → String) :
    String.join ((dialogue files r (lines ++ ["?"])).exchanges.map show?) =
      String.join ((dialogue files r lines).exchanges.map show?) ++
        show? ⟨(dialogue files r lines).router, "?", notRecognized ++ "\n",
          .presented ⟨notRecognized, .error⟩⟩ := by
  simp [dialogue_append h, dialogue_unknown]

/-- A script stops exactly where its dialogue does. -/
theorem stopped_runLines_iff : Stopped (runLines files r) lines ↔
    (dialogue files r (commandLines lines)).ended = true := by
  refine ⟨fun h => ?_, runLines_append_of_ended⟩
  by_contra hended
  have hlonger := (runLines_records files r (lines ++ ["?"])).output
  have hone : commandLines (lines ++ ["?"]) = commandLines lines ++ ["?"] := by
    rw [commandLines, List.filter_append]
    rfl
  rw [h, (runLines_records files r lines).output, hone,
    join_exchanges_unknown (Bool.eq_false_iff.mpr hended), eq_comm,
    String.append_eq_left_iff] at hlonger
  simp [notRecognized] at hlonger

theorem stopped_runSession_iff :
    Stopped (fun read => runSession files r (read.map .line)) lines ↔
      (dialogue files r (spoken lines)).ended = true := by
  constructor
  · intro h
    by_contra hended
    have hfalse : (dialogue files r (spoken lines)).ended = false := Bool.eq_false_iff.mpr hended
    have hlonger : (runSession files r ((lines ++ ["?"]).map .line)).output =
        (runSession files r (lines.map .line)).output := congrArg Session.output (h ["?"])
    change (runEvents files r _).output = (runEvents files r _).output at hlonger
    have hone : spoken (lines ++ ["?"]) = spoken lines ++ ["?"] := by
      rw [spoken, List.filter_append]
      rfl
    have hgoes : (dialogue files r (spoken lines ++ ["?"])).ended = false := by
      rw [dialogue_append hfalse, dialogue_unknown]
    rw [(runEvents_records files r (lines ++ ["?"])).output,
      (runEvents_records files r lines).output, hone, hfalse, hgoes,
      join_exchanges_unknown hfalse, String.append_assoc, String.append_right_inj] at hlonger
    have hnoticed : notRecognized ++ "\n" ++ "\n" ≠ "\n" := by decide
    exact absurd hlonger hnoticed
  · intro h more
    simp only [runSession, runEvents_append_of_ended h]

end RouterConsole.Shell
