import RouterConsole.Text.Quoted
import RouterConsole.Text.Split

/-!
# IPv4 addresses

A 32-bit address, its dotted text and the reading of such text. Each fault of a text is a cause of
its own; the parts of a text are checked from left to right and the first fault is reported.
-/
namespace RouterConsole.IPv4

open RouterConsole.Text (quoted splitAt)

/-- Two to the power of 32. -/
def addressCount : Nat := 0x100000000

/-- A 32-bit address, as a number. -/
structure Address where
  toNat : Nat
  lt_count : toNat < addressCount
  deriving DecidableEq

namespace Address

/-- The address whose number is `n`, taken modulo the number of addresses. -/
def ofNat (n : Nat) : Address := ⟨n % addressCount, Nat.mod_lt _ (by decide)⟩

/-- The four octets, the most significant first. -/
def octets (a : Address) : List Nat :=
  [a.toNat / 0x1000000, a.toNat / 0x10000 % 256, a.toNat / 0x100 % 256, a.toNat % 256]

def text (a : Address) : String := String.intercalate "." (a.octets.map toString)

instance : ToString Address := ⟨text⟩

end Address

inductive OctetFault where
  | empty
  | notDecimal (octet : String)
  | tooLong (octet : String)
  | leadingZero (octet : String)
  | tooLarge (value : Nat)
  deriving DecidableEq, Repr

/-- Why a text is not an address, an address with a mask, or a network. -/
inductive AddressFault where
  | empty
  | octetCount (text : String)
  | octet (fault : OctetFault) (text : String)
  | unexpectedSlash (text : String)
  | extraSlash (text : String)
  | badMask (mask : String)
  deriving DecidableEq, Repr

def OctetFault.message : OctetFault → String
  | .empty => "Empty octet not permitted"
  | .notDecimal o => "Only decimal digits permitted in " ++ quoted o
  | .tooLong o => "At most 3 characters permitted in " ++ quoted o
  | .leadingZero o => "Leading zeros are not permitted in " ++ quoted o
  | .tooLarge n => "Octet " ++ toString n ++ " (> 255) not permitted"

def AddressFault.message : AddressFault → String
  | .empty => "Address cannot be empty"
  | .octetCount t => "Expected 4 octets in " ++ quoted t
  | .octet f t => f.message ++ " in " ++ quoted t
  | .unexpectedSlash t => "Unexpected '/' in " ++ quoted t
  | .extraSlash t => "Only one '/' permitted in " ++ quoted t
  | .badMask m => quoted m ++ " is not a valid netmask"

/-- The number that ASCII decimal digits denote. -/
def ofDecimal (cs : List Char) : Nat :=
  cs.foldl (fun n c => 10 * n + (c.toNat - '0'.toNat)) 0

def parseOctet (cs : List Char) : Except OctetFault Nat :=
  if cs = [] then .error .empty
  else if !cs.all Char.isDigit then .error (.notDecimal (String.ofList cs))
  else if 3 < cs.length then .error (.tooLong (String.ofList cs))
  else if cs ≠ ['0'] ∧ cs.head? = some '0' then .error (.leadingZero (String.ofList cs))
  else if 255 < ofDecimal cs then .error (.tooLarge (ofDecimal cs))
  else .ok (ofDecimal cs)

/-- Reads a dotted address; the text holds no slash. -/
def parseDotted (cs : List Char) : Except AddressFault Address :=
  let whole := String.ofList cs
  if cs = [] then .error .empty
  else match splitAt '.' cs with
    | [a, b, c, d] => do
      let ns ← [a, b, c, d].mapM fun o => (parseOctet o).mapError fun f => .octet f whole
      return .ofNat (ns.foldl (fun n o => 256 * n + o) 0)
    | _ => .error (.octetCount whole)

def Address.parse (s : String) : Except AddressFault Address :=
  if '/' ∈ s.toList then .error (.unexpectedSlash s) else parseDotted s.toList

example : (Address.ofNat 0x0A000001).text = "10.0.0.1" := by decide

example : (Address.parse "10.0.0.1").toOption = some (.ofNat 0x0A000001) := by decide

example : (Address.parse "10.0.0.01").toOption = none := by decide

end RouterConsole.IPv4
