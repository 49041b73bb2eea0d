import RouterConsole.Storage.Error
import RouterConsole.Text.Line
import RouterConsole.Text.Split

/-!
# Files

What the program sees of the file system: for each path, what opening it yields. A directory tree
gives such a view; so does the machine that the program runs on.
-/
namespace RouterConsole.Storage

open RouterConsole.Text

inductive Opened where
  | bytes (content : List UInt8)
  | directory
  | missing
  /-- Something on the way to the file is no directory. -/
  | notDirectory
  | nameTooLong
  | nulInPath
  deriving DecidableEq, Repr

/-- What opening each path, in its plain form, yields. -/
abbrev Files := String → Opened

/-- The parts of a path between slashes, without empty and `.` parts. -/
def pathParts (cs : List Char) : List (List Char) :=
  (splitAt '/' cs).filter fun p => p != [] && p != ['.']

/-- The slashes that stay at the start of a path: none, two if there are exactly two, else one. -/
def pathRoot (cs : List Char) : List Char :=
  match (cs.takeWhile (· == '/')).length with
  | 0 => []
  | 2 => ['/', '/']
  | _ => ['/']

/-- The plain form of a path: single slashes, no `.` parts, and `.` for the path that says nothing
else. A `..` part stays. -/
def plainPath (path : String) : String :=
  let cs := path.toList
  match pathRoot cs ++ ['/'].intercalate (pathParts cs) with
  | [] => "."
  | plain => String.ofList plain

def textOf (content : List UInt8) : Except Crash String :=
  ((decodeUtf8 content).mapError .notText).map fun cs => String.ofList (unifyLineFeeds cs)

inductive Unreadable where
  | fault (fault : Fault)
  | crash (crash : Crash)
  deriving DecidableEq, Repr

def readText (files : Files) (path : String) : Except Unreadable String :=
  let plain := plainPath path
  match files plain with
  | .bytes content => (textOf content).mapError .crash
  | .directory => .error (.fault (.isDirectory plain))
  | .missing => .error (.fault (.missing plain))
  | .notDirectory => .error (.fault (.notDirectory plain))
  | .nameTooLong => .error (.fault (.nameTooLong plain))
  | .nulInPath => .error (.crash .nulInPath)

inductive Entry where
  | directory
  | file (content : List UInt8)
  deriving DecidableEq, Repr

/-- A place in the file system: the parts that lead to it from the current directory, innermost
first. A place outside that directory starts from as many `..` as there are steps up, or from the
root. -/
abbrev Place := List String

namespace Place

/-- The root. No part of a path holds a slash. -/
def root : Place := ["/"]

def start (path : List Char) : Place := if pathRoot path = [] then [] else root

/-- Takes one step along a path. Above the root there is only the root. -/
def step (place : Place) (part : String) : Place :=
  if part = ".." then
    match place with
    | [] => [".."]
    | last :: outer =>
      if last = ".." then ".." :: place else if last = "/" then place else outer
  else part :: place

/-- Whether a place is the current directory, one further up, or the root. -/
def isAncestor (place : Place) : Bool := place.all fun part => part == ".." || part == "/"

end Place

/-- A directory tree: what is at each place. Only the last entry made at a place counts. -/
structure Tree where
  entries : List (Place × Entry) := []
  deriving DecidableEq, Repr

namespace Tree

/-- The entry at a place; the current directory and those further up are always there. -/
def entry? (t : Tree) (place : Place) : Option Entry :=
  if place.isAncestor then some .directory else t.entries.lookup place

def put (t : Tree) (place : Place) (entry : Entry) : Tree := ⟨(place, entry) :: t.entries⟩

/-- The tree with an entry where the parts lead from a place; the directories on the way that are
not there are made as well. -/
def insertFrom (t : Tree) (place : Place) (entry : Entry) : List String → Tree
  | [] => t.put place entry
  | part :: rest =>
    let t := if (t.entry? place).isNone then t.put place .directory else t
    t.insertFrom (place.step part) entry rest

def parts (path : String) : List String := (pathParts path.toList).map String.ofList

def insert (t : Tree) (path : String) (entry : Entry) : Tree :=
  t.insertFrom (.start path.toList) entry (parts path)

/-- The greatest length of a part of a path, in bytes. -/
def maxPart : Nat := 255

def maxPath : Nat := 4095

/-- Follows the parts of a path from a directory. -/
def follow (t : Tree) (place : Place) : List String → Opened
  | [] => .directory
  | part :: rest =>
    if maxPart < part.utf8ByteSize then .nameTooLong
    else match t.entry? (place.step part) with
      | none => .missing
      | some .directory => t.follow (place.step part) rest
      | some (.file content) => if rest = [] then .bytes content else .notDirectory

def files (t : Tree) : Files := fun path =>
  let cs := path.toList
  if '\x00' ∈ cs then .nulInPath
  else if maxPath < path.utf8ByteSize then .nameTooLong
  else t.follow (.start cs) (parts path)

end Tree

example : plainPath "a//b/./c/" = "a/b/c" := by decide

example : plainPath "" = "." := by decide

example : (Tree.insert {} "d/../h" (.file [])).files "h" = .bytes [] := by decide

example : (Tree.insert {} "d/../h" (.file [])).files "x/../h" = .missing := by decide

end RouterConsole.Storage
