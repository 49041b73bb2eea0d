import RouterConsole.Config.Generate
import RouterConsole.Config.Transaction
import RouterConsole.Failure
import RouterConsole.Log

/-!
# Loading a configuration

A load replaces the whole configuration of a router by the one that a text describes, or fails and
leaves the router as it was. What a directive asks for and is already there is skipped.
-/
namespace RouterConsole.Config

/-- What a load did: the paths that changed the staged configuration and those that were there. -/
structure Report where
  format : Format
  applied : List String := []
  skipped : List String := []
  deriving DecidableEq, Repr

/-- A failed load, with the paths that were skipped before it failed. -/
structure LoadFailure where
  error : Failure
  skipped : List String := []
  deriving DecidableEq

def applyEdits (token : Token) (report : Report) (r : Router) :
    List (String × Edit) → Router × Except LoadFailure Report
  | [] => (r, .ok report)
  | (path, edit) :: rest =>
    match r.edit edit with
    | .ok r => applyEdits token { report with applied := report.applied ++ [path] } r rest
    | .error e =>
      if e.isDuplicate then
        applyEdits token { report with skipped := report.skipped ++ [path] } r rest
      else (r, .error ⟨.configuration ((Fault.refused e).at token), report.skipped⟩)

def applyDirectives (report : Report) (r : Router) :
    List Directive → Router × Except LoadFailure Report
  | [] => (r, .ok report)
  | d :: ds =>
    match applyEdits d.token report r d.edits with
    | (r, .ok report) => applyDirectives report r ds
    | (r, .error f) => (r, .error f)

/-- Reads a text and carries out what it says. -/
def applyText (format : Format) (text : String) (r : Router) : Router × Except LoadFailure Report :=
  match parse format r.interfaceNames text with
  | .error e => (r, .error ⟨.configuration e, []⟩)
  | .ok directives => applyDirectives ⟨format, [], []⟩ r directives

structure Loaded where
  router : Router
  result : Except Failure Report
  log : Log := []

def loadLog (format : Format) (routerName : String) (outcome : Except LoadFailure Report) : Log :=
  let record (level : LogLevel) (message : String) : LogRecord := ⟨level, .loading, message⟩
  let skipping (paths : List String) : Log :=
    paths.map fun p => record .debug ("Skipping existing configuration: " ++ p)
  record .info ("Loading " ++ format.name ++ " configuration into " ++ routerName) ::
    match outcome with
    | .ok report =>
      skipping report.skipped ++
        [record .info ("Configuration loaded: " ++ toString report.applied.length ++ " applied, " ++
          toString report.skipped.length ++ " skipped")]
    | .error ⟨.configuration e, skipped⟩ =>
      skipping skipped ++
        [record .debug "Rolling back staged configuration after ConfigurationParseError",
          record .warning ("Configuration load failed, changes rolled back: " ++ e.fault.reason)]
    | .error ⟨_, skipped⟩ => skipping skipped

/-- Replaces the configuration of a router by the one that a text describes, in the given notation
or the one that the text shows. -/
def load (r : Router) (text : String) (format? : Option Format := none) : Loaded :=
  let format := format?.getD (detectFormat text)
  let (router, outcome) :=
    r.transaction (fun e => LoadFailure.mk (.router e) []) (applyText format text)
  { router := router, result := outcome.mapError (·.error),
    log := loadLog format r.name outcome }

end RouterConsole.Config
