import RouterConsole.Startup.Run

/-!
# The program

The outer layer: it opens the files that a run may read, draws hardware addresses, hands lines to
the session and prints. It decides nothing else.
-/
namespace RouterConsole

open Startup

/-- Whether a code of the machine is the given one, with either sign. -/
def isCode (wanted code : UInt32) : Bool := code == wanted || code == 0 - wanted

def openFile (path : String) : IO Storage.Opened := do
  if path.toList.contains '\x00' then return .nulInPath
  try
    return .bytes (← IO.FS.readBinFile path).toList
  catch e =>
    return match e with
      | .inappropriateType _ code _ => if isCode 20 code then .notDirectory else .directory
      | .invalidArgument _ code _ => if isCode 36 code then .nameTooLong else .missing
      | _ => .missing

/-- The files at the given paths, as a view that knows no others. -/
def openFiles (paths : List String) : IO Storage.Files := do
  let plain := paths.map Storage.plainPath
  let opened ← plain.mapM openFile
  return fun path => ((plain.zip opened).lookup path).getD .missing

/-- Every file that a run may read before a session opens. -/
def filesFor (o : Options) : IO Storage.Files := do
  let script := o.script.bind (·.path?)
  let named := (o.config.bind (·.path?)).toList ++ script.toList
  let files ← openFiles named
  match script.map (Storage.readText files) with
  | some (.ok text) => openFiles (named ++ Shell.loadedPaths (Text.lines text))
  | _ => return files

def drawAddress : IO MacAddress := do
  let octet : IO (Fin 256) :=
    (fun n => ⟨n % 256, Nat.mod_lt n (Nat.zero_lt_succ 255)⟩) <$> IO.rand 0 255
  return .locallyAdministered #v[← octet, ← octet, ← octet, ← octet, ← octet]

def printLog (level : LogLevel) (log : Log) : IO Unit := do
  for r in Log.atLeast level log do
    IO.eprintln ("[" ++ r.level.name ++ "] " ++ r.message)

def printOutput (s : String) : IO Unit := do
  IO.print s
  (← IO.getStdout).flush

/-- Reads lines and hands them to the session until it ends. -/
partial def converse (level : LogLevel) (r : Router) : IO UInt32 := do
  printOutput r.prompt
  let read ← (← IO.getStdin).getLine
  let event : Shell.Event :=
    if read.isEmpty then .endOfInput else .line (String.ofList (read.toList.filter (· ≠ '\n')))
  let files ← match event with
    | .line text => openFiles (Shell.loadedPaths [text])
    | _ => openFiles []
  let reaction := Shell.react files r event
  printLog level reaction.log
  printOutput reaction.output
  match reaction.next with
  | .ok () => converse level reaction.router
  | .error none =>
    printLog level [Shell.closingRecord reaction.router]
    return 0
  | .error (some crash) =>
    IO.eprintln crash.message
    return 1

def perform (o : Options) : IO UInt32 := do
  let level := if o.verbose then LogLevel.debug else .info
  let drawn ← o.interfaces.mapM fun _ => drawAddress
  let spare ← drawAddress
  match plan (← filesFor o) (fun k => drawn.getD k spare) o with
  | .interactive log r =>
    printLog level (log ++ [Shell.openingRecord r])
    converse level r
  | .finished run =>
    printLog level run.log
    printOutput run.output
    match run.ending with
    | .exit code => return code.toUInt32
    | .crash crash =>
      IO.eprintln crash.message
      return 1

end RouterConsole

open RouterConsole in
def main (args : List String) : IO UInt32 := do
  match Startup.Options.ofArguments args with
  | .options o => perform o
  | .help =>
    IO.println Startup.usage
    return 0
  | .badUsage =>
    IO.eprintln Startup.usage
    return 2
