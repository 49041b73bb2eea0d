import RouterConsole.Failure

/-!
# Presenting failures

What an operator reads when a command fails, and how serious it is. A command may name the
configuration path that it is about, and whether it was to delete it.
-/
namespace RouterConsole.Shell

inductive Severity where
  /-- A benign outcome. -/
  | info
  /-- Guidance; nothing was changed. -/
  | warning
  | error
  deriving DecidableEq, Repr

def Severity.name : Severity → String
  | .info => "info"
  | .warning => "warning"
  | .error => "error"

structure Presented where
  message : String
  severity : Severity := .error
  deriving DecidableEq, Repr

def Presented.isFailure (p : Presented) : Bool := p.severity == .error

def validationFailed : String := "\tInvalid value\n\tValue validation failed\n\tSet failed"

def unusableAddressText (a : IPv4.InterfaceAddress) (problem : AddressProblem)
    (suggestion : Option IPv4.InterfaceAddress) : String :=
  "\tError: " ++ a.text ++ " is the " ++ problem.word ++ " address of " ++ a.network.text ++
    ", not a valid host IP" ++
    suggestion.elim "" (fun s => "\n\tUse a host address instead, e.g. " ++ s.text) ++
    "\n\n" ++ validationFailed

/-- Shows a failure. `path` is the configuration path that the command is about; an empty one says
as little as none. -/
def present (failure : Failure) (path : Option String) (deleting : Bool) : Presented :=
  let path := path.filter (· ≠ "")
  match failure.category, path with
  | .duplicate, some p => ⟨"\tConfiguration path: [" ++ p ++ "] already exists", .error⟩
  | .notFound subject, path =>
    if deleting then
      ⟨"\tNothing to delete (the specified " ++ subject ++ " does not exist)", .error⟩
    else ⟨path.elim failure.message fun p => "\tConfiguration path: [" ++ p ++ "] does not exist",
      .error⟩
  | .badValue, _ => ⟨"\tError: " ++ failure.message ++ "\n\n" ++ validationFailed, .error⟩
  | .nothingToCommit, _ => ⟨failure.message, .info⟩
  | .noSuchInterface, _ | .uncommittedChanges, _ => ⟨failure.message, .warning⟩
  | _, _ =>
    match failure with
    | .router (.unusableAddress a problem suggestion) =>
      ⟨unusableAddressText a problem suggestion, .error⟩
    | _ => ⟨failure.message, .error⟩

end RouterConsole.Shell
