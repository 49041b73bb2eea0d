import RouterConsole.Text.Line

/-!
# Transcripts

What commands have written so far.
-/
namespace RouterConsole.Shell

structure Transcript where
  text : String := ""
  deriving DecidableEq, Repr

namespace Transcript

def write (t : Transcript) (s : String) : Transcript := ⟨t.text ++ s⟩

def writeLine (t : Transcript) (s : String := "") : Transcript := t.write (s ++ "\n")

def clear (_ : Transcript) : Transcript := {}

/-- The lines written, without the characters that end them. -/
def lines (t : Transcript) : List String := Text.lines t.text

end Transcript

end RouterConsole.Shell
