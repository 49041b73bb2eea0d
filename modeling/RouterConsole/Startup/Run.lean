import RouterConsole.Shell.Script
import RouterConsole.Shell.Session
import RouterConsole.Startup.Options

/-!
# Running the program

The program builds a router, loads a configuration into it if one is named, and then prints the
configuration, runs a script or opens an interactive session. The exit code tells how that went.
-/
namespace RouterConsole.Startup

open Shell (Event Session)

def exitSuccess : Nat := 0
/-- A configuration that cannot be loaded. -/
def exitConfiguration : Nat := 1
/-- A script that cannot be read, or one in which a command failed. -/
def exitScript : Nat := 2

inductive Crash where
  | file (fault : Storage.Fault)
  | reading (crash : Storage.Crash)
  | noFile
  /-- The configuration cannot be loaded for a reason other than its text. -/
  | failure (failure : Failure)
  deriving DecidableEq

def Crash.message : Crash → String
  | .file f => f.message
  | .reading c => c.message
  | .noFile => "expected str, bytes or os.PathLike object, not list"
  | .failure f => f.message

inductive Ending where
  | exit (code : Nat)
  | crash (crash : Crash)
  deriving DecidableEq

structure Run where
  ending : Ending
  output : String := ""
  log : Log := []
  prompts : List String := []

def record (level : LogLevel) (message : String) : LogRecord := ⟨level, .startup, message⟩

/-- The router that the options ask for. The `k`-th interface gets the `k`-th hardware address. -/
def buildRouter (macs : Nat → MacAddress) (o : Options) : Router :=
  .new o.name (o.interfaces.mapIdx fun k name => .fresh name (macs k))

/-- The configuration stage: the router after it and its records, or how the program ends. -/
def configure (files : Storage.Files) (o : Options) (r : Router) :
    Log × Except Ending Router :=
  match o.config with
  | none => ([], .ok r)
  | some .nothing => ([], .error (.crash .noFile))
  | some (.named path) =>
    let loaded := Config.loadFile files r path o.format
    match loaded.result with
    | .ok report =>
      (loaded.log ++ [record .info ("Loaded " ++ path ++ ": " ++ toString report.applied.length ++
        " applied, " ++ toString report.skipped.length ++ " skipped")], .ok loaded.router)
    | .error (.unreadable (.fault (.noConfiguration p))) =>
      (loaded.log ++ [record .error (Storage.Fault.noConfiguration p).message],
        .error (.exit exitConfiguration))
    | .error (.unreadable (.fault f)) => (loaded.log, .error (.crash (.file f)))
    | .error (.unreadable (.crash c)) => (loaded.log, .error (.crash (.reading c)))
    | .error (.load (.configuration e)) =>
      (loaded.log ++ [record .error ("Failed to load configuration from " ++ path ++ ":\n" ++
        e.message)], .error (.exit exitConfiguration))
    | .error (.load failure) => (loaded.log, .error (.crash (.failure failure)))

def script (files : Storage.Files) (path : String) (r : Router) : Run :=
  match Storage.readText files path with
  | .error (.fault f) =>
    { ending := .exit exitScript,
      log := [record .error ("Cannot read script " ++ path ++ ": " ++ f.message)] }
  | .error (.crash c) => { ending := .crash (.reading c) }
  | .ok text =>
    let s := Shell.runScript files r text
    match s.crash with
    | some c => { ending := .crash (.reading c), output := s.output, log := s.log }
    | none =>
      if s.failures = 0 then { ending := .exit exitSuccess, output := s.output, log := s.log }
      else
        { ending := .exit exitScript, output := s.output,
          log := s.log ++
            [record .error (toString s.failures ++ " command(s) failed in " ++ path)] }

def ofSession (s : Session) : Run where
  ending := s.crash.elim (.exit exitSuccess) fun c => .crash (.reading c)
  output := s.output
  log := s.log
  prompts := s.prompts

/-- What is left to do once the configuration is loaded: nothing but to end, or a session. -/
inductive Plan where
  | finished (run : Run)
  | interactive (log : Log) (router : Router)

/-- Everything that the program does before it opens a session. -/
def plan (files : Storage.Files) (macs : Nat → MacAddress) (o : Options) : Plan :=
  let (log, configured) := configure files o (buildRouter macs o)
  let log := record .debug ("Starting router emulator " ++ o.name) :: log
  match configured with
  | .error ending => .finished { ending := ending, log := log }
  | .ok r =>
    if o.dump then
      .finished { ending := .exit exitSuccess, log := log,
                  output := Config.generate (o.format.getD .commands) r.committed }
    else match o.script with
      | some .nothing => .finished { ending := .crash .noFile, log := log }
      | some (.named path) =>
        let s := script files path r
        .finished { s with log := log ++ s.log }
      | none => .interactive log r

def run (files : Storage.Files) (macs : Nat → MacAddress) (o : Options)
    (events : List Event) : Run :=
  let run := match plan files macs o with
    | .finished run => run
    | .interactive log r =>
      let s := ofSession (Shell.runSession files r events)
      { s with log := log ++ s.log }
  { run with log := run.log.atLeast (if o.verbose then .debug else .info) }

end RouterConsole.Startup
