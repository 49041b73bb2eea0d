/-!
# Reading text files

The bytes of a text file are UTF-8. The first byte that cannot belong to a character stops the
reading; the fault names the bytes that were read of the broken character and where they stand.
-/
namespace RouterConsole.Text

inductive Utf8Problem where
  /-- No character starts with this byte. -/
  | invalidStart
  /-- A byte inside a character is not one that may stand there. -/
  | invalidContinuation
  | unexpectedEnd
  deriving DecidableEq, Repr

/-- The broken character: its first byte, where that stands, and how many bytes belong to it. -/
structure Utf8Fault where
  problem : Utf8Problem
  byte : UInt8
  position : Nat
  length : Nat := 1
  deriving DecidableEq, Repr

/-- How many bytes a character that starts with this byte has, and the least and greatest value of
its second byte; `none` if no character starts with it. -/
def characterShape? (b : UInt8) : Option (Nat × UInt8 × UInt8) :=
  if b < 0x80 then some (1, 0x80, 0xBF)
  else if b < 0xC2 then none
  else if b < 0xE0 then some (2, 0x80, 0xBF)
  else if b = 0xE0 then some (3, 0xA0, 0xBF)
  else if b = 0xED then some (3, 0x80, 0x9F)
  else if b < 0xF0 then some (3, 0x80, 0xBF)
  else if b = 0xF0 then some (4, 0x90, 0xBF)
  else if b < 0xF4 then some (4, 0x80, 0xBF)
  else if b = 0xF4 then some (4, 0x80, 0x8F)
  else none

/-- How many of the `wanted` bytes after the first continue the character: the first of them lies
between `low` and `high`, the others are any continuation bytes. -/
def continued (low high : UInt8) : Nat → List UInt8 → Nat
  | 0, _ | _, [] => 0
  | wanted + 1, b :: bs =>
    if low ≤ b ∧ b ≤ high then continued 0x80 0xBF wanted bs + 1 else 0

def characterValue (first : UInt8) (rest : List UInt8) : Nat :=
  let lead := match rest.length with
    | 0 => first.toNat
    | 1 => first.toNat % 32
    | 2 => first.toNat % 16
    | _ => first.toNat % 8
  rest.foldl (fun n b => 64 * n + b.toNat % 64) lead

/-- Reads the characters of a byte sequence that starts at the given position of the file.
`skip` bytes belong to the character before. -/
def decodeFrom (position : Nat) : Nat → List UInt8 → Except Utf8Fault (List Char)
  | _, [] => .ok []
  | skip + 1, _ :: bs => decodeFrom (position + 1) skip bs
  | 0, b :: bs =>
    match characterShape? b with
    | none => .error ⟨.invalidStart, b, position, 1⟩
    | some (size, low, high) =>
      let found := continued low high (size - 1) bs
      if found = size - 1 then do
        let cs ← decodeFrom (position + 1) found bs
        return Char.ofNat (characterValue b (bs.take found)) :: cs
      else if found = bs.length then .error ⟨.unexpectedEnd, b, position, found + 1⟩
      else .error ⟨.invalidContinuation, b, position, found + 1⟩

def decodeUtf8 (bytes : List UInt8) : Except Utf8Fault (List Char) := decodeFrom 0 0 bytes

end RouterConsole.Text
