import RouterConsole.Proofs.Config.File
import RouterConsole.Shell.Dispatch

/-!
# What commands do

A command shows something, or asks the router for one operation, or loads a file. `Ran` lists what
the run of a command can come to, once for all commands, and the lemmas after it say what a
dispatched line makes of such a run. What holds of every command is proved by one case for each
constructor of `Ran`.
-/
namespace RouterConsole.Shell

open RouterConsole.Configuration (Edited)
open Router (LeadsTo)

namespace Command

/-- The edit that a command asks for, or why its arguments are refused; a command that edits
nothing has none. -/
def edit? (args : Arguments) : Command → Option (Except RouterError Edit)
  | route c => some ((c.route args).map c.edit)
  | deleteAddress =>
    some ((RouteCommand.typed Value.interfaceAddress (args.value "address")).map fun a =>
      .deleteAddress (args.value "interface") (some a))
  | enableInterface => some (.ok (.enableInterface (args.value "interface")))
  | disableInterface => some (.ok (.disableInterface (args.value "interface")))
  | setAddress =>
    some ((RouteCommand.typed Value.interfaceAddress (args.value "address")).map
      (.setAddress (args.value "interface")))
  | showRoutes | showConfiguration _ | showInterfaces | configure | commit | discard | exit
  | exitDiscard | save | load | help => none

/-- The operation that a command with these arguments asks for. -/
inductive Asks : Command → Arguments → Operation → Prop
  | configure {args : Arguments} : Asks configure args (.setMode .configuration)
  | commit {args : Arguments} : Asks commit args .commit
  | discard {args : Arguments} : Asks discard args .discard
  | exit {args : Arguments} : Asks exit args (.setMode .operational)
  | exitDiscard {args : Arguments} : Asks exitDiscard args (.forceMode .operational)
  | edit {c : Command} {args : Arguments} {e : Edit} : c.edit? args = some (.ok e) →
      Asks c args (.edit e)

/-- What the run of a command can come to. Only loading and leaving have endings of their own. -/
inductive Ran (files : Storage.Files) (c : Command) (args : Arguments) (r : Router) :
    Execution → Prop
  | shown (text : String) : c.edit? args = none → Ran files c args r { router := r, output := text }
  | performed {op : Operation} {r' : Router} (answer : String) : Asks c args op →
      r.perform op = .ok r' → Ran files c args r { router := r', output := line answer }
  | refused (e : RouterError) : c ≠ .load →
      Ran files c args r { router := r, ending := .failed (.router e) }
  | left : c = .exit → Ran files c args r { router := r, ending := .left }
  | loaded : c = .load → Ran files c args r (executeLoad files r (args.value "file"))

variable {files : Storage.Files} {c : Command} {args : Arguments} {r : Router}

theorem ran_attempt {op : Operation} (hop : Asks c args op) (hc : c ≠ .load) (answer : String) :
    Ran files c args r (attempt r (r.perform op) answer) := by
  unfold attempt
  cases h : r.perform op with
  | ok r' => exact .performed answer hop h
  | error e => exact .refused e hc

theorem ran_display (hc : c.edit? args = none) (hl : c ≠ .load)
    (outcome : Except RouterError String) : Ran files c args r (display r outcome) := by
  unfold display
  cases outcome with
  | ok text => exact .shown text hc
  | error e => exact .refused e hl

/-- In configuration mode an editing command does the edit that it asks for. -/
theorem execute_of_configuration {request : Except RouterError Edit}
    (h : c.edit? args = some request) (hm : r.mode = .configuration) :
    execute files c args r = attempt r (request >>= r.edit) editMarker := by
  have hr : ∀ command, r.requireConfiguration command = .ok () := fun _ => if_pos hm
  cases c with
  | route c =>
    obtain rfl := Option.some.inj h
    simp only [execute, hr]
    cases c.route args <;> rfl
  | deleteAddress =>
    obtain rfl := Option.some.inj h
    simp only [execute, hr]
    cases RouteCommand.typed Value.interfaceAddress (args.value "address") <;> rfl
  | setAddress =>
    obtain rfl := Option.some.inj h
    simp only [execute, hr]
    cases RouteCommand.typed Value.interfaceAddress (args.value "address") <;> rfl
  | enableInterface | disableInterface =>
    obtain rfl := Option.some.inj h
    rfl
  | _ => cases h

/-- How a command that is for configuration mode alone is named when it is refused elsewhere. -/
def refusedAs : Command → Option String
  | route c => some (c.action.verb ++ " [protocols]")
  | deleteAddress | enableInterface => some "delete [interfaces]"
  | disableInterface | setAddress => some "set [interfaces]"
  | commit => some "[commit]"
  | discard => some "[discard]"
  | showRoutes | showConfiguration _ | showInterfaces | configure | exit | exitDiscard | save | load
  | help => none

/-- In operational mode such a command is refused before its arguments are read. -/
theorem execute_of_operational {name : String} (h : c.refusedAs = some name)
    (hm : r.mode = .operational) (files : Storage.Files) (args : Arguments) :
    execute files c args r =
      { router := r, ending := .failed (.router (.wrongMode name)) } := by
  have hr : ∀ command, r.requireConfiguration command = .error (.wrongMode command) := by
    intro command
    simp only [Router.requireConfiguration, hm, reduceCtorEq, if_false]
  cases c with
  | route | deleteAddress | setAddress =>
    obtain rfl := Option.some.inj h
    simp only [execute, hr]
    rfl
  | enableInterface | disableInterface =>
    obtain rfl := Option.some.inj h
    simp only [execute, Router.edit_of_operational hm]
    rfl
  | commit =>
    obtain rfl := Option.some.inj h
    simp only [execute, Router.commit_of_operational hm]
    rfl
  | discard =>
    obtain rfl := Option.some.inj h
    simp only [execute, Router.discard_of_operational hm]
    rfl
  | _ => cases h

theorem exists_refusedAs {request : Except RouterError Edit} (h : c.edit? args = some request) :
    ∃ name, c.refusedAs = some name := by
  cases c with
  | route | deleteAddress | enableInterface | disableInterface | setAddress => exact ⟨_, rfl⟩
  | _ => cases h

/-- An editing command does an edit that changes the staged copy, or is refused and does nothing. -/
theorem execute_of_edit {request : Except RouterError Edit} (h : c.edit? args = some request)
    (files : Storage.Files) (r : Router) :
    (∃ e c', request = .ok e ∧ r.mode = .configuration ∧ Edited r.staged e c' ∧
        execute files c args r =
          { router := { r with staged := c', dirty := true }, output := line editMarker }) ∨
      ∃ err, execute files c args r = { router := r, ending := .failed (.router err) } := by
  rcases r.mode.eq_or with hm | hm
  · obtain ⟨name, hname⟩ := exists_refusedAs h
    exact .inr ⟨_, execute_of_operational hname hm files args⟩
  · rw [execute_of_configuration h hm]
    cases request with
    | error err => exact .inr ⟨err, rfl⟩
    | ok e =>
      have hedit : (Except.ok e >>= r.edit) = r.edit e := rfl
      rw [hedit, Router.edit_of_configuration hm]
      cases hc : r.staged.edit e with
      | error err => exact .inr ⟨err, rfl⟩
      | ok c' => exact .inl ⟨e, c', rfl, hm, Configuration.edit_eq_ok_iff.mp hc, rfl⟩

theorem execute_ran (files : Storage.Files) (c : Command) (args : Arguments) (r : Router) :
    Ran files c args r (execute files c args r) := by
  cases hedit : c.edit? args with
  | some request =>
    have hload : c ≠ .load := by
      rintro rfl
      cases hedit
    rcases execute_of_edit hedit files r with ⟨e, c', rfl, hm, hc, he⟩ | ⟨err, he⟩
    · have hp : r.perform (.edit e) = .ok { r with staged := c', dirty := true } :=
        Router.edit_eq_ok_iff.mpr ⟨hm, c', hc.edit_eq, rfl⟩
      rw [he]
      exact .performed editMarker (.edit hedit) hp
    · rw [he]
      exact .refused err hload
  | none =>
    cases c with
    | route | deleteAddress | enableInterface | disableInterface | setAddress => cases hedit
    | showRoutes => exact ran_display hedit (by simp) _
    | showInterfaces => exact ran_display hedit (by simp) _
    | showConfiguration format => exact .shown _ hedit
    | help => exact .shown _ hedit
    | configure =>
      simp only [execute]
      split
      · exact .shown _ hedit
      · exact ran_attempt .configure (by simp) _
    | commit =>
      simp only [execute]
      split
      · exact .shown _ hedit
      · exact ran_attempt .commit (by simp) _
    | discard => exact ran_attempt .discard (by simp) _
    | exit =>
      simp only [execute]
      split
      · exact .left rfl
      · exact ran_attempt .exit (by simp) _
    | exitDiscard => exact .performed "exit" .exitDiscard rfl
    | save => exact .refused _ (by simp)
    | load => exact .loaded rfl

/-- The line that loading writes before it reads the file. -/
def announcement (path : String) : String := line ("Loading configuration from '" ++ path ++ "'...")

theorem executeLoad_router (files : Storage.Files) (r : Router) (path : String) :
    (executeLoad files r path).router = (Config.loadFile files r path).router := by
  unfold executeLoad
  dsimp only
  split <;> rfl

/-- A load that does not finish has written its announcement and nothing else. -/
theorem executeLoad_of_error {path : String} {e : Config.FileError}
    (h : (Config.loadFile files r path).result = .error e) :
    (executeLoad files r path).output = announcement path := by
  unfold executeLoad
  simp only [h]
  split
  · rename_i hr
    cases hr
  all_goals rfl

theorem executeLoad_of_ok {path : String} {report : Config.Report}
    (h : (Config.loadFile files r path).result = .ok report) :
    (executeLoad files r path).ending = .finished := by
  simp only [executeLoad, h]

namespace Ran

variable {x : Execution}

/-- A command does what operations can do. -/
theorem leadsTo (h : Ran files c args r x) : r.LeadsTo x.router := by
  cases h with
  | shown | refused | left => exact .refl r
  | performed answer hop hp => exact Router.leadsTo_of_perform _ hp
  | loaded =>
    rw [executeLoad_router]
    exact Config.leadsTo_loadFile files r _ _

/-- A command that does not finish leaves the router as it was. -/
theorem unchanged (h : Ran files c args r x) (hs : r.Synced) (hx : x.ending ≠ .finished) :
    x.router = r := by
  cases h with
  | shown | performed => exact absurd rfl hx
  | refused | left => rfl
  | loaded =>
    rw [executeLoad_router]
    cases hr : (Config.loadFile files r (args.value "file")).result with
    | ok report => exact absurd (executeLoad_of_ok hr) hx
    | error e => exact Config.loadFile_unchanged hs hr

/-- A command that fails has written nothing, or has announced that it loads. -/
theorem output_of_failed (h : Ran files c args r x) {failure : Failure}
    (hx : x.ending = .failed failure) :
    x.output = if c = .load then announcement (args.value "file") else "" := by
  cases h with
  | shown | performed | left => cases hx
  | refused e hc => rw [if_neg hc]
  | loaded hc =>
    rw [if_pos hc]
    cases hr : (Config.loadFile files r (args.value "file")).result with
    | ok report =>
      rw [executeLoad_of_ok hr] at hx
      cases hx
    | error e => exact executeLoad_of_error hr

end Ran

end Command

/-! ## Dispatched lines -/

theorem invoke_router {κ : Type} (reg : Registry κ) (r : Router) (c : κ) (args : Arguments) :
    (reg.invoke r c args).router = (reg.run c args r).router := by
  unfold Registry.invoke
  dsimp only
  split <;> rfl

section Invoke

variable {κ : Type} {reg : Registry κ} {r : Router} {c : κ} {args : Arguments}

theorem invoke_of_finished (h : (reg.run c args r).ending = .finished) :
    (reg.invoke r c args).result = .done ∧
      (reg.invoke r c args).output = (reg.run c args r).output := by
  simp only [Registry.invoke, h, and_self]

theorem invoke_of_failed {failure : Failure} (h : (reg.run c args r).ending = .failed failure) :
    ∃ p, (reg.invoke r c args).result = .presented p ∧
      (reg.invoke r c args).output = (reg.run c args r).output ++ p.message ++ "\n" := by
  simp only [Registry.invoke, h]
  exact ⟨_, rfl, rfl⟩

/-- Only a failure is presented. -/
theorem failed_of_presented {p : Presented} (h : (reg.invoke r c args).result = .presented p) :
    ∃ failure, (reg.run c args r).ending = .failed failure := by
  unfold Registry.invoke at h
  dsimp only at h
  split at h
  · cases h
  · cases h
  · cases h
  · rename_i failure hf
    exact ⟨failure, hf⟩

theorem invoke_left_iff :
    (reg.invoke r c args).result = .left ↔ (reg.run c args r).ending = .left := by
  simp only [Registry.invoke]
  cases (reg.run c args r).ending <;> simp

theorem invoke_crashed_iff {crash : Storage.Crash} :
    (reg.invoke r c args).result = .crashed crash ↔ (reg.run c args r).ending = .crashed crash := by
  simp only [Registry.invoke]
  cases (reg.run c args r).ending <;> simp

end Invoke

section Dispatch

variable {files : Storage.Files} {r : Router} {line : String} {c : Command} {args : Arguments}

/-- A line calls the command that it fits. -/
theorem called?_of_find? {κ : Type} {reg : Registry κ} {call : κ × Arguments}
    (h : reg.find? line = some call) : reg.called? line = some call := by
  rw [Registry.called?, h]
  rfl

theorem dispatch_of_called (h : (Command.registry files).called? line = some (c, args)) :
    (dispatch files r line).router = (c.execute files args r).router ∧
      (dispatch files r line).output = ((Command.registry files).invoke r c args).output ∧
      (dispatch files r line).result = ((Command.registry files).invoke r c args).result := by
  simp only [dispatch, Registry.dispatch, h, and_true]
  exact invoke_router (Command.registry files) r c args

theorem dispatch_of_not_called (h : (Command.registry files).called? line = none) :
    (dispatch files r line).router = r ∧
      (dispatch files r line).output = notRecognized ++ "\n" ∧
      (dispatch files r line).result = .presented ⟨notRecognized, .error⟩ := by
  simp only [dispatch, Registry.dispatch, h, and_self]

/-- A line is answered by what its command writes, if the command finishes. -/
theorem dispatch_of_finished (h : (Command.registry files).called? line = some (c, args))
    {r' : Router} {text : String}
    (hx : c.execute files args r = { router := r', output := text }) :
    (dispatch files r line).router = r' ∧ (dispatch files r line).result = .done := by
  obtain ⟨hrouter, -, hresult⟩ := dispatch_of_called (r := r) h
  have hfinished : ((Command.registry files).run c args r).ending = .finished :=
    congrArg Execution.ending hx
  exact ⟨hrouter.trans (congrArg Execution.router hx),
    hresult.trans (invoke_of_finished hfinished).1⟩

/-- A line that ends the session calls a command that does. -/
theorem dispatch_left_iff : (dispatch files r line).result = .left ↔
    ∃ c args, (Command.registry files).called? line = some (c, args) ∧
      (c.execute files args r).ending = .left := by
  cases h : (Command.registry files).called? line with
  | none => simp [(dispatch_of_not_called h).2.2]
  | some call =>
    rw [(dispatch_of_called h).2.2, invoke_left_iff]
    exact ⟨fun hleft => ⟨_, _, rfl, hleft⟩, fun ⟨_, _, rfl, hleft⟩ => hleft⟩

theorem dispatch_crashed_iff {crash : Storage.Crash} :
    (dispatch files r line).result = .crashed crash ↔
      ∃ c args, (Command.registry files).called? line = some (c, args) ∧
        (c.execute files args r).ending = .crashed crash := by
  cases h : (Command.registry files).called? line with
  | none => simp [(dispatch_of_not_called h).2.2]
  | some call =>
    rw [(dispatch_of_called h).2.2, invoke_crashed_iff]
    exact ⟨fun hcrashed => ⟨_, _, rfl, hcrashed⟩, fun ⟨_, _, rfl, hcrashed⟩ => hcrashed⟩

/-- A line does what operations can do. -/
theorem leadsTo_dispatch (files : Storage.Files) (r : Router) (line : String) :
    r.LeadsTo (dispatch files r line).router := by
  cases h : (Command.registry files).called? line with
  | none =>
    rw [(dispatch_of_not_called h).1]
    exact .refl r
  | some call =>
    rw [(dispatch_of_called h).1]
    exact (Command.execute_ran files call.1 call.2 r).leadsTo

end Dispatch

end RouterConsole.Shell
