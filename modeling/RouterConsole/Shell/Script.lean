import RouterConsole.Shell.Dispatch

/-!
# Scripts

A script is carried out line by line, each line echoed after the prompt. Blank lines and lines that
start with a number sign are passed over; a failed command stops nothing but is counted.
-/
namespace RouterConsole.Shell

structure ScriptRun where
  router : Router
  output : String := ""
  log : Log := []
  failures : Nat := 0
  crash : Option Storage.Crash := none

def runLines (files : Storage.Files) (r : Router) : List String → ScriptRun
  | [] => { router := r }
  | l :: ls =>
    let command := Text.trimmed l
    if !Config.isSignificant l.toList then runLines files r ls
    else
      let d := dispatch files r command
      let echoed := Command.line (r.prompt ++ command) ++ d.output
      match d.result with
      | .left => { router := d.router, output := echoed, log := d.log }
      | .crashed c => { router := d.router, output := echoed, log := d.log, crash := some c }
      | .done | .presented _ =>
        let rest := runLines files d.router ls
        { rest with output := echoed ++ rest.output, log := d.log ++ rest.log,
                    failures := rest.failures + if d.result.isFailure then 1 else 0 }

def runScript (files : Storage.Files) (r : Router) (text : String) : ScriptRun :=
  runLines files r (Text.lines text)

end RouterConsole.Shell
