import RouterConsole.Shell.Dispatch

/-!
# Interactive sessions

A session reads lines and carries them out until the operator leaves or the input ends. An
interrupt abandons the line; a blank line does nothing.
-/
namespace RouterConsole.Shell

inductive Event where
  | line (text : String)
  | interrupt
  | endOfInput
  deriving DecidableEq, Repr

structure Reaction where
  router : Router
  output : String := ""
  log : Log := []
  /-- Whether the session goes on, and if not, what it died of, if of anything. -/
  next : Except (Option Storage.Crash) Unit := .ok ()

def react (files : Storage.Files) (r : Router) : Event → Reaction
  | .interrupt => { router := r }
  | .endOfInput => { router := r, output := "\n", next := .error none }
  | .line text =>
    if Text.words text = [] then { router := r }
    else
      let d := dispatch files r text
      { router := d.router, output := d.output, log := d.log,
        next := match d.result with
          | .done | .presented _ => .ok ()
          | .left => .error none
          | .crashed c => .error (some c) }

structure Session where
  router : Router
  output : String := ""
  prompts : List String := []
  log : Log := []
  crash : Option Storage.Crash := none

def openingRecord (r : Router) : LogRecord :=
  ⟨.debug, .session, "Starting CLI session for " ++ r.name⟩

def closingRecord (r : Router) : LogRecord :=
  ⟨.debug, .session, "CLI session for " ++ r.name ++ " ended"⟩

/-- Goes through events; when they run out, the input ends. -/
def runEvents (files : Storage.Files) (r : Router) : List Event → Session
  | [] => close (react files r .endOfInput) [r.prompt]
  | event :: rest =>
    let reaction := react files r event
    match reaction.next with
    | .error _ => close reaction [r.prompt]
    | .ok () =>
      let s := runEvents files reaction.router rest
      { s with output := reaction.output ++ s.output, prompts := r.prompt :: s.prompts,
               log := reaction.log ++ s.log }
where
  close (reaction : Reaction) (prompts : List String) : Session :=
    let crash := match reaction.next with
      | .error crash => crash
      | .ok () => none
    { router := reaction.router, output := reaction.output, prompts := prompts,
      log := reaction.log ++ if crash.isNone then [closingRecord reaction.router] else [],
      crash := crash }

def runSession (files : Storage.Files) (r : Router) (events : List Event) : Session :=
  let s := runEvents files r events
  { s with log := openingRecord r :: s.log }

end RouterConsole.Shell
