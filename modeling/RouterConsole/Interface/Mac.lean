import RouterConsole.Text.Quoted
import RouterConsole.Text.Split

/-!
# Hardware addresses

Six octets, written as pairs of lower-case hexadecimal digits with colons between them; no other
spelling is read. An interface that is given none gets a locally administered unicast address,
whose last five octets are drawn at random.
-/
namespace RouterConsole

structure MacAddress where
  octets : Vector (Fin 256) 6
  deriving DecidableEq

namespace MacAddress

/-- The locally administered unicast address with the given last five octets. -/
def locallyAdministered (drawn : Vector (Fin 256) 5) : MacAddress :=
  ⟨(#v[2] : Vector (Fin 256) 1) ++ drawn⟩

def text (m : MacAddress) : String :=
  String.ofList ([':'].intercalate (m.octets.toList.map fun o => Text.hexDigits 2 o.val))

/-- The value of a lower-case hexadecimal digit. -/
def hexDigit? (c : Char) : Option Nat :=
  if '0' ≤ c ∧ c ≤ '9' then some (c.toNat - '0'.toNat)
  else if 'a' ≤ c ∧ c ≤ 'f' then some (c.toNat - 'a'.toNat + 10)
  else none

def octet? : List Char → Option (Fin 256)
  | [h, l] => do
    let high ← hexDigit? h
    let low ← hexDigit? l
    return Fin.ofNat 256 (16 * high + low)
  | _ => none

def parse? (s : String) : Option MacAddress := do
  let octets ← (Text.splitAt ':' s.toList).mapM octet?
  if h : octets.length = 6 then some ⟨⟨octets.toArray, by simpa using h⟩⟩ else none

end MacAddress

end RouterConsole
