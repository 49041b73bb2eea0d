/-!
# Decimal digits and integers

The decimal digits of every script, and the integers written in them. `integer?` reads what an
operator may type for a number: one sign, digits of any script, single underscores between
digits, and spaces around it.
-/
namespace RouterConsole.Text

/-- The zeros of the scripts that have decimal digits; the other nine follow each in order. -/
def digitZeros : List Nat :=
  [0x30, 0x660, 0x6F0, 0x7C0, 0x966, 0x9E6, 0xA66, 0xAE6, 0xB66, 0xBE6, 0xC66, 0xCE6, 0xD66,
  0xDE6, 0xE50, 0xED0, 0xF20, 0x1040, 0x1090, 0x17E0, 0x1810, 0x1946, 0x19D0, 0x1A80, 0x1A90,
  0x1B50, 0x1BB0, 0x1C40, 0x1C50, 0xA620, 0xA8D0, 0xA900, 0xA9D0, 0xA9F0, 0xAA50, 0xABF0, 0xFF10,
  0x104A0, 0x10D30, 0x11066, 0x110F0, 0x11136, 0x111D0, 0x112F0, 0x11450, 0x114D0, 0x11650,
  0x116C0, 0x11730, 0x118E0, 0x11950, 0x11C50, 0x11D50, 0x11DA0, 0x16A60, 0x16AC0, 0x16B50,
  0x1D7CE, 0x1D7D8, 0x1D7E2, 0x1D7EC, 0x1D7F6, 0x1E140, 0x1E2F0, 0x1E950, 0x1FBF0]

def digitValue? (c : Char) : Option Nat :=
  (digitZeros.find? fun z => z ≤ c.toNat && c.toNat < z + 10).map (c.toNat - ·)

/-- The most digits that a number may be written with. -/
def maxDigits : Nat := 4300

/-- The white space that may stand around a number. The four separators U+001C to U+001F are
blank but may not. -/
def isNumberSpace (c : Char) : Bool :=
  let n := c.toNat
  (9 ≤ n && n ≤ 13) || n == 32 || n == 0x85 || n == 0xA0 || n == 0x1680 ||
    (0x2000 ≤ n && n ≤ 0x200A) || n == 0x2028 || n == 0x2029 || n == 0x202F || n == 0x205F ||
    n == 0x3000

/-- The digit values of a run of digits in which single underscores may stand between two digits.
`afterDigit` says whether the character before was a digit. -/
def digitRun? (afterDigit : Bool) : List Char → Option (List Nat)
  | [] => if afterDigit then some [] else none
  | c :: cs =>
    if c = '_' then if afterDigit then digitRun? false cs else none
    else do
      let d ← digitValue? c
      let ds ← digitRun? true cs
      return d :: ds

def ofDigits (ds : List Nat) : Nat := ds.foldl (fun n d => 10 * n + d) 0

/-- A number without sign or surrounding space. -/
def natural? (cs : List Char) : Option Nat := do
  let ds ← digitRun? false cs
  if ds.length ≤ maxDigits then some (ofDigits ds) else none

def integer? (s : String) : Option Int :=
  let body := ((s.toList.dropWhile isNumberSpace).reverse.dropWhile isNumberSpace).reverse
  match body with
  | '-' :: cs => (natural? cs).map fun n => -(n : Int)
  | '+' :: cs => (natural? cs).map Int.ofNat
  | cs => (natural? cs).map Int.ofNat

example : integer? " +1_0 " = some 10 := by decide

example : integer? "1__0" = none := by decide

end RouterConsole.Text
