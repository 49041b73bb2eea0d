import RouterConsole.Config.Load
import RouterConsole.Storage.Files

/-!
# Loading a configuration from a file
-/
namespace RouterConsole.Config

/-- Why loading a file fails: the file cannot be read, or its text cannot be loaded. -/
inductive FileError where
  | unreadable (reason : Storage.Unreadable)
  | load (failure : Failure)
  deriving DecidableEq

structure FileLoaded where
  router : Router
  result : Except FileError Report
  log : Log := []

/-- A path that leads to no file is a missing configuration, whatever stands in the way. -/
def missingConfiguration (files : Storage.Files) (plain : String) : Option Storage.Fault :=
  match files plain with
  | .missing | .notDirectory | .nulInPath => some (.noConfiguration plain)
  | .nameTooLong => some (.nameTooLong plain)
  | .bytes _ | .directory => none

/-- Replaces the configuration of a router by the one in a file. -/
def loadFile (files : Storage.Files) (r : Router) (path : String)
    (format? : Option Format := none) : FileLoaded :=
  let plain := Storage.plainPath path
  match missingConfiguration files plain with
  | some fault => { router := r, result := .error (.unreadable (.fault fault)) }
  | none =>
    let reading : LogRecord := ⟨.debug, .loading, "Reading configuration from " ++ plain⟩
    match Storage.readText files path with
    | .error e => { router := r, result := .error (.unreadable e), log := [reading] }
    | .ok text =>
      let loaded := load r text format?
      { router := loaded.router, result := loaded.result.mapError .load,
        log := reading :: loaded.log }

end RouterConsole.Config
