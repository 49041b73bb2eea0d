/-!
# Lines

A text is cut into lines at every line boundary of Unicode, and a carriage return followed by a
line feed is one boundary. The boundary itself belongs to no line, and a boundary at the very end
opens no further line.
-/
namespace RouterConsole.Text

def isLineBreak (c : Char) : Bool :=
  let n := c.toNat
  (10 ≤ n && n ≤ 13) || (28 ≤ n && n ≤ 30) || n == 0x85 || n == 0x2028 || n == 0x2029

/-- The lines of a text, without their boundaries. -/
def splitLines : List Char → List (List Char)
  | [] => []
  | '\r' :: '\n' :: cs => [] :: splitLines cs
  | c :: cs =>
    if isLineBreak c then [] :: splitLines cs
    else match splitLines cs with
      | [] => [[c]]
      | l :: ls => (c :: l) :: ls

def lines (s : String) : List String := (splitLines s.toList).map String.ofList

/-- Writes every line break of a text file, in any of its three spellings, as a line feed. -/
def unifyLineFeeds : List Char → List Char
  | [] => []
  | '\r' :: '\n' :: cs => '\n' :: unifyLineFeeds cs
  | c :: cs => (if c = '\r' then '\n' else c) :: unifyLineFeeds cs

def unlines (ls : List String) : String := String.join (ls.map (· ++ "\n"))

end RouterConsole.Text
