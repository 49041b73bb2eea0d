import RouterConsole.Proofs.Shell.Atomic
import RouterConsole.Proofs.Shell.Unambiguous

/-!
# Commands in the wrong mode

In operational mode the commands that edit, commit or discard are refused as such, whatever their
arguments are: what is answered is known from the command alone. Nothing about the values of the
line, the interfaces, the routes or the files can be learned from it.
-/
namespace RouterConsole.Shell

variable {files : Storage.Files} {r : Router} {line name : String} {c : Command} {args : Arguments}

/-- The commands that only configuration mode carries out. -/
def guarded : List Command := editing ++ [.commit, .discard]

theorem refusedAs_of_guarded (h : c ∈ guarded) : ∃ name, c.refusedAs = some name := by
  rcases List.mem_append.mp h with h | h
  · obtain ⟨request, hedit⟩ := edit?_of_editing h []
    exact Command.exists_refusedAs hedit
  · simp only [List.mem_cons, List.not_mem_nil, or_false] at h
    rcases h with rfl | rfl <;> exact ⟨_, rfl⟩

/-- A command that a line abbreviates is called by it. -/
theorem called?_of_resolve? (h : (Command.registry files).resolve? line = some c) :
    (Command.registry files).called? line = some (c, []) := by
  rw [Command.resolve?_eq] at h
  obtain ⟨-, hstart, hliteral⟩ := Command.of_abbreviated? h
  have hkeywords : Begins (Text.words line) (c.patternWords.map (·.text)) := by
    have hleading := (Pattern.leadingKeywords_of_isLiteral hliteral).1
    exact hleading ▸ Pattern.abbreviatedBy_iff.mp hstart
  obtain ⟨-, hfits⟩ := Command.abbreviated?_of_begins h (.refl _) hkeywords
  rw [Command.called?_eq, Command.calledBy, h]
  cases hfit : Command.fitting? (Text.words line) with
  | none => rfl
  | some call => rw [hfits call hfit]; rfl

/-- The wrong mode is presented in the same words whatever path the command is about, and whether or
not it deletes. -/
theorem present_wrongMode (name : String) (path : Option String) (deleting : Bool) :
    present (.router (.wrongMode name)) path deleting = ⟨"Invalid command: " ++ name, .error⟩ := rfl

theorem dispatch_of_operational (hcall : (Command.registry files).called? line = some (c, args))
    (hname : c.refusedAs = some name) (hm : r.mode = .operational) :
    (dispatch files r line).router = r ∧
      (dispatch files r line).result = .presented ⟨"Invalid command: " ++ name, .error⟩ ∧
      (dispatch files r line).output = "Invalid command: " ++ name ++ "\n" := by
  obtain ⟨hrouter, houtput, hresult⟩ := dispatch_of_called (r := r) hcall
  have hexecute := Command.execute_of_operational hname hm files args
  have hrun : (Command.registry files).run c args r =
      { router := r, ending := .failed (.router (.wrongMode name)) } := hexecute
  rw [hrouter, houtput, hresult, hexecute]
  simp only [Registry.invoke, hrun, present_wrongMode, String.empty_append, and_self]

/-- Whether a line calls a command, because it fits the pattern or because it abbreviates it. -/
def Calls (files : Storage.Files) (line : String) (c : Command) : Prop :=
  (∃ args, (Command.registry files).find? line = some (c, args)) ∨
    (Command.registry files).resolve? line = some c

theorem Calls.called? (h : Calls files line c) :
    ∃ args, (Command.registry files).called? line = some (c, args) := by
  rcases h with ⟨args, h⟩ | h
  · exact ⟨args, called?_of_find? h⟩
  · exact ⟨[], called?_of_resolve? h⟩

/-- In operational mode a line that calls a command which edits, commits or discards is answered
with the refusal of the command, which is an error, and changes nothing. The result and the output
are those of every other line that calls the same command, whatever its values are, at every other
router in operational mode and with other files. -/
theorem wrong_mode_is_reported_first {r' : Router} {files' : Storage.Files} {line' : String}
    (hm : r.mode = .operational) (hm' : r'.mode = .operational) (hc : c ∈ guarded)
    (hline : Calls files line c) (hline' : Calls files' line' c) :
    (dispatch files r line).router = r ∧
      (∃ name, c.refusedAs = some name ∧
        (dispatch files r line).result = .presented ⟨"Invalid command: " ++ name, .error⟩ ∧
        (dispatch files r line).output = "Invalid command: " ++ name ++ "\n") ∧
      (dispatch files' r' line').result = (dispatch files r line).result ∧
      (dispatch files' r' line').output = (dispatch files r line).output := by
  obtain ⟨name, hname⟩ := refusedAs_of_guarded hc
  obtain ⟨args, hcall⟩ := hline.called?
  obtain ⟨args', hcall'⟩ := hline'.called?
  obtain ⟨hrouter, hresult, houtput⟩ := dispatch_of_operational hcall hname hm
  obtain ⟨-, hresult', houtput'⟩ := dispatch_of_operational hcall' hname hm'
  exact ⟨hrouter, ⟨name, hname, hresult, houtput⟩, hresult'.trans hresult.symm,
    houtput'.trans houtput.symm⟩

/-- An address that could be set, and values of which none can be read for an interface that does
not exist, on a router that has committed something else. -/
theorem wrong_mode_is_reported_first_of_unreadable_address :
    let files : Storage.Files := fun _ => .missing
    let r := Router.new "edge" [.fresh "eth0" ⟨.replicate 6 2⟩]
    let r' := r.run [.setMode .configuration, .edit (.disableInterface "eth0"), .commit,
      .setMode .operational]
    let line := "set interfaces ethernet eth0 address 10.0.0.1/24"
    let line' := "set interfaces ethernet eth9 address 10.0.0.300/64"
    r'.committed ≠ r.committed ∧ (dispatch files r line).router = r ∧
      (dispatch files r line).result =
        .presented ⟨"Invalid command: set [interfaces]", .error⟩ ∧
      (dispatch files r' line').result = (dispatch files r line).result ∧
      (dispatch files r' line').output = (dispatch files r line).output := by
  intro files r r' line line'
  have hline : Calls files line .setAddress :=
    .inl ⟨[("interface", "eth0"), ("address", "10.0.0.1/24")], by decide +kernel⟩
  have hline' : Calls files line' .setAddress :=
    .inl ⟨[("interface", "eth9"), ("address", "10.0.0.300/64")], by decide +kernel⟩
  have hm : r.mode = .operational := rfl
  have hm' : r'.mode = .operational := by decide +kernel
  obtain ⟨hrouter, ⟨name, hname, hresult, -⟩, hsame⟩ :=
    wrong_mode_is_reported_first hm hm' (by decide) hline hline'
  obtain rfl := Option.some.inj hname
  exact ⟨by decide +kernel, hrouter, hresult, hsame⟩

end RouterConsole.Shell
