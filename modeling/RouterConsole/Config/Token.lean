import RouterConsole.Text.Blank
import RouterConsole.Text.Line

/-!
# Tokens of configuration text

A configuration text is read line by line. A line that is blank or whose first word starts with a
number sign says nothing; of every other line the words are kept, each with the place where it
stands.
-/
namespace RouterConsole.Config

/-- A word of configuration text; lines and columns count from one. -/
structure Token where
  value : String
  line : Nat
  column : Nat
  deriving DecidableEq, Repr

/-- The token as messages name it. -/
def Token.text (t : Token) : String :=
  "'" ++ t.value ++ "' at line " ++ toString t.line ++ ", column " ++ toString t.column

/-- The words of the rest of a line that goes on at the given column. -/
def scanLine (line column : Nat) : List Char → List Token
  | [] => []
  | c :: cs =>
    if Text.isBlank c then scanLine line (column + 1) cs
    else
      let word := c :: cs.takeWhile (!Text.isBlank ·)
      ⟨String.ofList word, line, column⟩ ::
        scanLine line (column + word.length) (cs.dropWhile (!Text.isBlank ·))
termination_by cs => cs.length
decreasing_by
  · simp
  · exact Nat.lt_succ_of_le (List.dropWhile_sublist _).length_le

/-- Whether a line says something: its first non-blank character exists and opens no comment. -/
def isSignificant (cs : List Char) : Bool :=
  match Text.trim cs with
  | [] => false
  | c :: _ => c != '#'

/-- The tokens of each significant line, where the first line has the given number. -/
def scanLines (line : Nat) : List (List Char) → List (List Token)
  | [] => []
  | l :: ls =>
    if isSignificant l then scanLine line 1 l :: scanLines (line + 1) ls
    else scanLines (line + 1) ls

def tokenize (text : String) : List (List Token) := scanLines 1 (Text.splitLines text.toList)

example :
    (tokenize "# note\n  set x").map (·.map fun t => (t.line, t.column)) = [[(2, 3), (2, 7)]] := by
  decide +kernel

end RouterConsole.Config
