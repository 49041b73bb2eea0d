import RouterConsole.Config.File
import RouterConsole.Router.Display
import RouterConsole.Shell.Command
import RouterConsole.Shell.Registry

/-!
# Carrying out commands

What each command does. Commands that edit check the mode before they read their arguments, so a
command in the wrong mode is reported as such whatever its arguments are. A command that fails
leaves the router as it was.
-/
namespace RouterConsole.Shell

namespace Command

/-- What configuration mode answers to a command that it carried out. -/
def editMarker : String := "[edit]"

def line (s : String) : String := s ++ "\n"

/-- Does what a command comes to, and answers, unless the router refuses it. -/
def attempt (r : Router) (outcome : Except RouterError Router) (answer : String) : Execution :=
  match outcome with
  | .ok r => { router := r, output := line answer }
  | .error e => { router := r, ending := .failed (.router e) }

def display (r : Router) (outcome : Except RouterError String) : Execution :=
  match outcome with
  | .ok text => { router := r, output := text }
  | .error e => { router := r, ending := .failed (.router e) }

def executeLoad (files : Storage.Files) (r : Router) (path : String) : Execution :=
  let loaded := Config.loadFile files r path
  let announced := line ("Loading configuration from '" ++ path ++ "'...")
  let failed (ending : Ending) : Execution :=
    { router := loaded.router, output := announced, log := loaded.log, ending := ending }
  match loaded.result with
  | .ok report =>
    let summary := line ("Load complete: " ++ toString report.applied.length ++ " applied, " ++
      toString report.skipped.length ++ " skipped")
    let marker := if loaded.router.mode = .configuration then line editMarker else ""
    { router := loaded.router, output := announced ++ summary ++ marker, log := loaded.log }
  | .error (.load failure) => failed (.failed failure)
  | .error (.unreadable (.fault f)) => failed (.failed (.configuration ⟨.unreadable f, none⟩))
  | .error (.unreadable (.crash c)) => failed (.crashed c)

def execute (files : Storage.Files) (c : Command) (args : Arguments) (r : Router) : Execution :=
  match c with
  | showRoutes => display r r.showRoutes
  | showConfiguration format =>
    let text := Config.generate format r.committed
    { router := r, output := if text = "" then line "/* No configuration */" else text }
  | showInterfaces => display r r.showInterfaces
  | configure =>
    if r.mode = .configuration then
      { router := r, output := line ("\n\tInvalid command: [configure]\n\n" ++ editMarker) }
    else attempt r (r.setMode .configuration) editMarker
  | commit =>
    match r.commit with
    | .error .nothingToCommit =>
      { router := r, output := line RouterError.nothingToCommit.message ++ line editMarker }
    | outcome => attempt r outcome editMarker
  | discard => attempt r r.discard editMarker
  | exit =>
    if r.mode = .operational then { router := r, ending := .left }
    else attempt r (r.setMode .operational) "exit"
  | exitDiscard => { router := r.forceMode .operational, output := line "exit" }
  | save => attempt r r.save editMarker
  | load => executeLoad files r (args.value "file")
  | route c =>
    attempt r (do
      r.requireConfiguration (c.action.verb ++ " [protocols]")
      r.edit (c.edit (← c.route args))) editMarker
  | deleteAddress =>
    attempt r (do
      r.requireConfiguration "delete [interfaces]"
      let address ← RouteCommand.typed Value.interfaceAddress (args.value "address")
      r.edit (.deleteAddress (args.value "interface") (some address))) editMarker
  | enableInterface => attempt r (r.edit (.enableInterface (args.value "interface"))) editMarker
  | disableInterface => attempt r (r.edit (.disableInterface (args.value "interface"))) editMarker
  | setAddress =>
    attempt r (do
      r.requireConfiguration "set [interfaces]"
      let address ← RouteCommand.typed Value.interfaceAddress (args.value "address")
      r.edit (.setAddress (args.value "interface") address)) editMarker
  | help =>
    { router := r,
      output := String.join (all.map fun c =>
        line (" - " ++ c.pattern.text ++ ": " ++ c.description)) }

/-- The full registry, over the given files. -/
def registry (files : Storage.Files) : Registry Command where
  commands := all
  pattern := pattern
  run := execute files
  path := path
  deletes := deletes

end Command

def dispatch (files : Storage.Files) (r : Router) (line : String) : Dispatched :=
  (Command.registry files).dispatch r line

/-- The files that lines would load, as far as they call the load command. -/
def loadedPaths (lines : List String) : List String :=
  lines.filterMap fun line => ((Command.pattern .load).arguments? line).map (·.value "file")

end RouterConsole.Shell
