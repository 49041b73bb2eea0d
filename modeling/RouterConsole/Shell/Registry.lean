import RouterConsole.Log
import RouterConsole.Router.Basic
import RouterConsole.Shell.Pattern
import RouterConsole.Shell.Presentation
import RouterConsole.Storage.Error

/-!
# Registries of commands

A registry holds commands in order. A line calls the first command whose pattern it fits; a line
that fits none calls the one command whose keywords it abbreviates, if there is only one and it
takes no arguments. What a command does, and which line calls it, are separate concerns: the
registry knows its commands only through their patterns and their runs.
-/
namespace RouterConsole.Shell

inductive Ending where
  | finished
  | failed (failure : Failure)
  | left
  /-- Something failed that no part of the program expects. -/
  | crashed (crash : Storage.Crash)
  deriving DecidableEq

/-- The run of a command: the router after it, what it wrote, and how it ended. -/
structure Execution where
  router : Router
  output : String := ""
  log : Log := []
  ending : Ending := .finished

/-- Commands in order, each known by its pattern and its run. -/
structure Registry (κ : Type) where
  commands : List κ
  pattern : κ → Pattern
  run : κ → Arguments → Router → Execution
  path : κ → Arguments → Option String := fun _ _ => none
  deletes : κ → Bool := fun _ => false

inductive Result where
  | done
  | presented (p : Presented)
  | left
  | crashed (crash : Storage.Crash)
  deriving DecidableEq

def Result.isFailure : Result → Bool
  | presented p => p.isFailure
  | _ => false

/-- The dispatch of a line: the router after it, what was written, and what it comes to. -/
structure Dispatched where
  router : Router
  output : String := ""
  log : Log := []
  result : Result := .done

def notRecognized : String := "Command not recognized or not supported"

namespace Registry

variable {κ : Type}

/-- The first command that the line fits, with its arguments. -/
def find? (reg : Registry κ) (line : String) : Option (κ × Arguments) :=
  reg.commands.findSome? fun c => ((reg.pattern c).arguments? line).map (c, ·)

/-- The command that the line abbreviates. -/
def resolve? (reg : Registry κ) (line : String) : Option κ :=
  match Text.words line with
  | [] => none
  | ws =>
    match reg.commands.filter fun c => (reg.pattern c).abbreviatedBy ws with
    | [c] => if (reg.pattern c).isLiteral then some c else none
    | _ => none

/-- The command that a line calls, and its arguments. -/
def called? (reg : Registry κ) (line : String) : Option (κ × Arguments) :=
  reg.find? line <|> (reg.resolve? line).map (·, [])

/-- Runs a command and presents its failure, if it fails. -/
def invoke (reg : Registry κ) (r : Router) (c : κ) (args : Arguments) : Dispatched :=
  let e := reg.run c args r
  let done := { router := e.router, output := e.output, log := e.log : Dispatched }
  match e.ending with
  | .finished => done
  | .left => { done with result := .left }
  | .crashed crash => { done with result := .crashed crash }
  | .failed failure =>
    let p := present failure (reg.path c args) (reg.deletes c)
    let record : LogRecord := ⟨.debug, .dispatch,
      "Command " ++ Text.quoted (reg.pattern c).text ++ " failed (" ++ p.severity.name ++ "): " ++
        failure.message⟩
    { done with output := e.output ++ p.message ++ "\n", log := e.log ++ [record],
                result := .presented p }

def dispatch (reg : Registry κ) (r : Router) (line : String) : Dispatched :=
  let record (message : String) : LogRecord := ⟨.debug, .dispatch, message⟩
  let received := record ("Dispatching " ++ Text.quoted line ++ " on " ++ r.name)
  match reg.called? line with
  | none =>
    { router := r, output := notRecognized ++ "\n", log := [received],
      result := .presented ⟨notRecognized, .error⟩ }
  | some (c, args) =>
    let resolved :=
      if (reg.find? line).isSome then []
      else [record ("Resolved " ++ Text.quoted line ++ " to " ++ Text.quoted (reg.pattern c).text)]
    let d := reg.invoke r c args
    { d with log := received :: resolved ++ d.log }

end Registry

end RouterConsole.Shell
