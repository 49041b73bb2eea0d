import RouterConsole.IPv4.Address
import RouterConsole.Text.Digit

/-!
# Networks and interface addresses

A network is a block of addresses whose size is a power of two and whose first address is a
multiple of that size; an interface address is one address of such a block together with the
prefix length. The mask in a text may be a prefix length, a netmask or a hostmask; what is printed
is always the prefix length.
-/
namespace RouterConsole.IPv4

/-- The number of leading bits that the addresses of a network share. -/
abbrev PrefixLength := Fin 33

/-- How many addresses a network with this prefix length has. -/
def blockSize (length : PrefixLength) : Nat := Nat.pow 2 (32 - length.val)

theorem blockSize_pos (length : PrefixLength) : 0 < blockSize length := Nat.pow_pos (by decide)

/-- A block of addresses that starts at a multiple of its size. -/
structure Network where
  base : Address
  length : PrefixLength
  aligned : base.toNat % blockSize length = 0
  deriving DecidableEq

/-- An address of an interface: the address and how much of it names the network. -/
structure InterfaceAddress where
  address : Address
  length : PrefixLength
  deriving DecidableEq

namespace Network

def containing (a : Address) (length : PrefixLength) : Network where
  base := ⟨a.toNat - a.toNat % blockSize length, Nat.lt_of_le_of_lt (Nat.sub_le _ _) a.lt_count⟩
  length := length
  aligned := by
    have h := Nat.div_add_mod a.toNat (blockSize length)
    have : a.toNat - a.toNat % blockSize length =
        blockSize length * (a.toNat / blockSize length) := by omega
    simp only [this, Nat.mul_mod_right]

/-- A network is the one that its first address lies in. -/
@[simp] theorem containing_base (n : Network) : containing n.base n.length = n := by
  obtain ⟨⟨base, lt⟩, length, aligned⟩ := n
  simp only [containing, Network.mk.injEq, Address.mk.injEq, and_true]
  dsimp only at aligned
  omega

def last (n : Network) : Nat := n.base.toNat + (blockSize n.length - 1)

def text (n : Network) : String := n.base.text ++ "/" ++ toString n.length.val

instance : ToString Network := ⟨text⟩

end Network

namespace InterfaceAddress

def network (i : InterfaceAddress) : Network := .containing i.address i.length

def text (i : InterfaceAddress) : String := i.address.text ++ "/" ++ toString i.length.val

instance : ToString InterfaceAddress := ⟨text⟩

/-- Prefix lengths 31 and 32 leave no room for a network and a broadcast address. -/
def isHostOnly (i : InterfaceAddress) : Bool := 31 ≤ i.length.val

/-- Whether the address is the first of its network, which no interface may have. -/
def isNetworkAddress (i : InterfaceAddress) : Bool :=
  !i.isHostOnly && i.address == i.network.base

def isBroadcastAddress (i : InterfaceAddress) : Bool :=
  !i.isHostOnly && i.address.toNat == i.network.last

/-- An address of the same network that an interface may have: the last one in place of a
broadcast address, else the first one. -/
def suggestion? (i : InterfaceAddress) : Option InterfaceAddress :=
  if i.isHostOnly then none
  else if i.isBroadcastAddress then some ⟨.ofNat (i.network.last - 1), i.length⟩
  else some ⟨.ofNat (i.network.base.toNat + 1), i.length⟩

end InterfaceAddress

/-- The address whose leading `length` bits are ones and whose others are zeros. -/
def netmask (length : PrefixLength) : Nat := addressCount - blockSize length

/-- The prefix length that a mask stands for. The masks with all bits alike are netmasks. -/
def maskLength? (mask : Address) : Option PrefixLength :=
  let ofNetmask (n : Nat) := (List.finRange 33).find? fun l => netmask l == n
  ofNetmask mask.toNat <|> ofNetmask (addressCount - 1 - mask.toNat)

def prefixLength? (cs : List Char) : Option PrefixLength :=
  if cs ≠ [] ∧ cs.all Char.isDigit ∧ cs.length ≤ Text.maxDigits then
    if h : ofDecimal cs < 33 then some ⟨ofDecimal cs, h⟩ else none
  else none

/-- Reads a mask in any of its three forms. -/
def parseMask (cs : List Char) : Except AddressFault PrefixLength :=
  match prefixLength? cs with
  | some l => .ok l
  | none =>
    match (parseDotted cs).toOption.bind maskLength? with
    | some l => .ok l
    | none => .error (.badMask (String.ofList cs))

/-- Reads an address with its mask, in that order; without a mask the network is the address
alone. -/
def parseMasked (s : String) : Except AddressFault (Address × PrefixLength) :=
  match Text.splitAt '/' s.toList with
  | [a] => do return (← parseDotted a, 32)
  | [a, m] => do
    let address ← parseDotted a
    return (address, ← parseMask m)
  | _ => .error (.extraSlash s)

def InterfaceAddress.parse (s : String) : Except AddressFault InterfaceAddress := do
  let (address, length) ← parseMasked s
  return ⟨address, length⟩

/-- Reads a network; the host bits of the text are dropped. -/
def Network.parse (s : String) : Except AddressFault Network := do
  let (address, length) ← parseMasked s
  return .containing address length

example :
    ((Network.parse "10.0.0.9/255.255.255.0").map (·.text)).toOption = some "10.0.0.0/24" := by
  decide

example :
    ((Network.parse "10.0.0.9/0.0.0.255").map (·.text)).toOption = some "10.0.0.0/24" := by
  decide

end RouterConsole.IPv4
