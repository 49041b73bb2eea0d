import RouterConsole.Config.Grammar

/-!
# The two notations of configuration text

A configuration is written either as commands, one path to a line after the word `set`, or as
nested blocks in braces. Both are reduced to paths; the fault that ends the reading comes after the
paths that were read before it.
-/
namespace RouterConsole.Config

inductive Format where
  | commands
  | hierarchical
  deriving DecidableEq, Repr

def Format.name : Format → String
  | .commands => "commands"
  | .hierarchical => "hierarchical"

/-- The paths of a text, and the fault that ended its reading, if one did. -/
structure PathReading where
  paths : List (List Token)
  fault : Option Error := none
  deriving DecidableEq

/-- A reading that starts with the given path, if there is one. -/
def PathReading.after (r : PathReading) (path : Option (List Token)) : PathReading :=
  { r with paths := path.toList ++ r.paths }

def commandPath : List Token → Except Error (List Token)
  | [] => .ok []
  | t :: ts =>
    if t.value ≠ "set" then .error (Fault.expectedSet.at t)
    else if ts = [] then .error ((Fault.unexpectedEnd t.line).at t)
    else .ok ts

def commandPaths : List (List Token) → PathReading
  | [] => ⟨[], none⟩
  | l :: ls =>
    match commandPath l with
    | .error e => ⟨[], some e⟩
    | .ok path => (commandPaths ls).after (some path)

/-- An open block: its brace, the path that it contributes and, in a route block, the lines that it
has so far. -/
structure Block where
  opener : Token
  path : List Token
  children : List (List Token) := []
  deriving DecidableEq, Repr

/-- Whether a block describes one route; such a block becomes a single path when it is closed. -/
def Block.isRoute (b : Block) : Bool :=
  b.path.length == 4 && (b.path.take 3).map (·.value) == ["protocols", "static", "route"]

def isTargetLine (l : List Token) : Bool :=
  match l with
  | [] => false
  | t :: _ => t.value == "next-hop" || t.value == "interface"

/-- The path of a closed route block: its one target comes first, whatever its place. -/
def Block.routePath (b : Block) : Except Error (List Token) :=
  match b.children.filter isTargetLine with
  | [] => .error (Fault.expectedTarget.at b.opener)
  | [target] => .ok (b.path ++ target ++ (b.children.filter (!isTargetLine ·)).flatten)
  | _ :: second :: _ => .error ⟨.severalTargets, second.head?⟩

/-- Splits a line that opens a block into the words before the brace and the brace, which may stand
apart or end the last word. -/
def splitOpener (l : List Token) : Option (List Token × Token) :=
  l.getLast?.bind fun last =>
    match last.value.toList.reverse with
    | '{' :: rest =>
      if rest = [] then some (l.dropLast, last)
      else
        let word := { last with value := String.ofList rest.reverse }
        some (l.dropLast ++ [word], ⟨"\x7b", last.line, last.column + rest.length⟩)
    | _ => none

/-- The brace of a line that is nothing but a closing brace. -/
def closer? : List Token → Option Token
  | [t] => if t.value = "\x7d" then some t else none
  | _ => none

def hasBrace (t : Token) : Bool := t.value.toList.contains '{' || t.value.toList.contains '}'

/-- Reads one line inside the given open blocks, innermost first: the blocks open after it and the
path that it completes, if it does. -/
def readLine (stack : List Block) (l : List Token) :
    Except Error (List Block × Option (List Token)) :=
  let current := stack.head?.elim [] (·.path)
  let inRoute := stack.head?.any (·.isRoute)
  match closer? l with
  | some brace =>
    match stack with
    | [] => .error (Fault.unexpectedClose.at brace)
    | b :: outer =>
      if b.isRoute then b.routePath.map fun path => (outer, some path) else .ok (outer, none)
  | none =>
    match splitOpener l with
    | some (words, brace) =>
      if words = [] then .error (Fault.namelessBlock.at brace)
      else if inRoute then .error (Fault.blockInRoute.at brace)
      else .ok ({ opener := brace, path := current ++ words } :: stack, none)
    | none =>
      match l.find? hasBrace with
      | some t => .error (Fault.unexpectedBrace.at t)
      | none =>
        match stack with
        | b :: outer =>
          if b.isRoute then .ok ({ b with children := b.children ++ [l] } :: outer, none)
          else .ok (stack, some (current ++ l))
        | [] => .ok ([], some l)

/-- The paths of lines of nested blocks, inside the given open blocks. -/
def blockPaths (stack : List Block) : List (List Token) → PathReading
  | [] => ⟨[], stack.head?.map fun b => Fault.missingClose.at b.opener⟩
  | l :: ls =>
    match readLine stack l with
    | .error e => ⟨[], some e⟩
    | .ok (stack, path) => (blockPaths stack ls).after path

def readPaths (format : Format) (text : String) : PathReading :=
  match format with
  | .commands => commandPaths (tokenize text)
  | .hierarchical => blockPaths [] (tokenize text)

/-- The directives of a text. A fault in a path comes before a fault in the lines after it. -/
def parse (format : Format) (names : List String) (text : String) : Except Error (List Directive) :=
  let reading := readPaths format text
  match reading.paths.mapM (interpret names) with
  | .error e => .error e
  | .ok directives =>
    match reading.fault with
    | some e => .error e
    | none => .ok (directives.filterMap id)

/-- The notation of a text: blocks exactly if a brace is opened outside blank lines and comments. -/
def detectFormat (text : String) : Format :=
  if (tokenize text).any (·.any (·.value.toList.contains '{')) then .hierarchical else .commands

end RouterConsole.Config
