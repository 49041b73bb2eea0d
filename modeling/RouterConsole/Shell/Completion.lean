import RouterConsole.Router.Basic
import RouterConsole.Shell.Command

/-!
# Completion

What may follow the words typed so far. Keywords complete to themselves and the placeholder of an
interface to the interfaces that the router shows; other placeholders complete to nothing.
-/
namespace RouterConsole.Shell

/-- A word that may follow, how many of the last characters typed it replaces, and what it is. -/
structure Completion where
  word : String
  replaced : Nat
  hint : String
  deriving DecidableEq, Repr

/-- The finished words of a text and the one that is being typed, which is empty after a space. -/
def typedWords (text : String) : List String × String :=
  let ws := Text.words text
  match ws.getLast? with
  | none => ([], "")
  | some last => if text.toList.getLast? = some ' ' then (ws, "") else (ws.dropLast, last)

def fits : List PatternWord → List String → Bool
  | _, [] => true
  | [], _ :: _ => false
  | .keyword k :: ps, w :: ws => w == k && fits ps ws
  | .placeholder _ _ :: ps, _ :: ws => fits ps ws

/-- The words that may follow the finished ones in a pattern, each with its hint. -/
def candidates (r : Router) (c : Command) (finished : List String) : List (String × String) :=
  if fits c.patternWords finished then
    match c.patternWords[finished.length]? with
    | some (.keyword k) => [(k, c.description)]
    | some (.placeholder _ name) =>
      if name = "interface" then r.interfaceNames.map (·, "interface") else []
    | none => []
  else []

/-- Keeps the first of the pairs that have the same word. -/
def firstOfEach : List (String × String) → List (String × String)
  | [] => []
  | p :: ps => p :: (firstOfEach ps).filter (·.1 ≠ p.1)

/-- The completions of a text, in the order of the commands that they come from. -/
def complete (r : Router) (text : String) : List Completion :=
  let (finished, word) := typedWords text
  let offered := (Command.all.filter (r.mode ∈ ·.modes)).flatMap (candidates r · finished)
  let fitting := offered.filter fun p => word.toList.isPrefixOf p.1.toList
  (firstOfEach fitting).map fun p => ⟨p.1, word.length, p.2⟩

end RouterConsole.Shell
