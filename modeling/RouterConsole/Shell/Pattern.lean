import RouterConsole.Text.Blank

/-!
# Command patterns

A command is called by a pattern: keywords, and placeholders in angle brackets that stand for one
word each. A line fits a pattern when their words agree in number and the keywords agree word by
word; how the words are spaced does not matter.
-/
namespace RouterConsole.Shell

/-- Whether a character may stand in the name of a placeholder after the first one. -/
def isNameChar (c : Char) : Bool := ('a' ≤ c && c ≤ 'z') || ('0' ≤ c && c ≤ '9') || c == '-'

/-- The argument name of a placeholder: what stands in the brackets, with underscores for dashes. A
line feed may follow the closing bracket. -/
def placeholderName? (word : String) : Option String :=
  match word.toList with
  | '<' :: c :: cs =>
    let name := cs.takeWhile isNameChar
    let rest := cs.dropWhile isNameChar
    if 'a' ≤ c ∧ c ≤ 'z' ∧ (rest = ['>'] ∨ rest = ['>', '\n']) then
      some (String.ofList ((c :: name).map fun x => if x = '-' then '_' else x))
    else none
  | _ => none

/-- A word of a pattern: a keyword, or a placeholder as it is written with its argument's name. -/
inductive PatternWord where
  | keyword (text : String)
  | placeholder (text name : String)
  deriving DecidableEq, Repr

namespace PatternWord

def ofString (word : String) : PatternWord :=
  (placeholderName? word).elim (.keyword word) (.placeholder word)

/-- The placeholder of an argument whose name is written as it is. -/
def slot (name : String) : PatternWord := .placeholder ("<" ++ name ++ ">") name

def text : PatternWord → String
  | keyword t | placeholder t _ => t

def name? : PatternWord → Option String
  | keyword _ => none
  | placeholder _ n => some n

end PatternWord

/-- The arguments of a command, by the names of its placeholders. -/
abbrev Arguments := List (String × String)

/-- The argument with this name; a command asks only for names in its own pattern. -/
def Arguments.value (args : Arguments) (name : String) : String := (args.lookup name).getD ""

structure Pattern where
  text : String
  words : List PatternWord
  deriving DecidableEq, Repr

namespace Pattern

def ofText (text : String) : Pattern := ⟨text, (Text.words text).map .ofString⟩

/-- The pattern with these words, written with single spaces. -/
def ofWords (words : List PatternWord) : Pattern := ⟨Text.unwords (words.map (·.text)), words⟩

def names (p : Pattern) : List String := p.words.filterMap (·.name?)

/-- Whether no two placeholders have the same name; only then is the pattern usable. -/
def isUsable (p : Pattern) : Bool := decide p.names.Nodup

def leadingKeywords (p : Pattern) : List String :=
  (p.words.takeWhile (·.name?.isNone)).map (·.text)

def isLiteral (p : Pattern) : Bool := p.leadingKeywords.length == p.words.length

def matchWords : List PatternWord → List String → Option Arguments
  | [], [] => some []
  | .keyword k :: ps, w :: ws => if w = k then matchWords ps ws else none
  | .placeholder _ n :: ps, w :: ws => (matchWords ps ws).map ((n, w) :: ·)
  | _, _ => none

/-- The arguments that a line gives to the placeholders, if it fits. -/
def arguments? (p : Pattern) (line : String) : Option Arguments :=
  matchWords p.words (Text.words line)

def abbreviatedBy (p : Pattern) (ws : List String) : Bool :=
  ws.length ≤ p.leadingKeywords.length &&
    (ws.zip p.leadingKeywords).all fun (w, k) => w.toList.isPrefixOf k.toList

end Pattern

example : placeholderName? "<next-hop>" = some "next_hop" := by decide

end RouterConsole.Shell
