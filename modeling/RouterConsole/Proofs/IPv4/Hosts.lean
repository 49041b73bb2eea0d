import Mathlib.Data.Nat.ModEq
import RouterConsole.IPv4.Network

/-!
# Hosts of a network

An address lies in a network exactly when it has the prefix length of the network and is neither
below its base nor above its last address. Between these two are the hosts. In the bits, the base
is the address whose host bits are all zero and the last one that whose host bits are all one, and
where there is room for hosts these are different addresses.
-/
namespace RouterConsole.IPv4

/-- The last of a block is still an address, because blocks are aligned. -/
theorem Network.last_lt (n : Network) : n.last < addressCount := by
  have hsize : blockSize n.length ∣ addressCount := pow_dvd_pow 2 (Nat.sub_le 32 n.length.val)
  have hbase : n.base.toNat ≡ addressCount [MOD blockSize n.length] :=
    n.aligned.trans (Nat.mod_eq_zero_of_dvd hsize).symm
  have hfits := hbase.add_le_of_lt n.base.lt_count
  have hpos := blockSize_pos n.length
  unfold last
  omega

/-- What is left of an address of a block, below its base. -/
theorem Network.mod_of_within (n : Network) {x : Nat} (hlow : n.base.toNat ≤ x)
    (hhigh : x ≤ n.last) : x % blockSize n.length = x - n.base.toNat := by
  obtain ⟨k, rfl⟩ := Nat.exists_eq_add_of_le hlow
  have hpos := blockSize_pos n.length
  have hk : k < blockSize n.length := by
    unfold last at hhigh
    omega
  rw [Nat.add_mod, n.aligned, Nat.zero_add, Nat.mod_mod, Nat.mod_eq_of_lt hk]
  omega

namespace InterfaceAddress

/-- An address lies in a network exactly when it is none of the addresses around it. -/
theorem network_eq_iff {s : InterfaceAddress} {n : Network} :
    s.network = n ↔
      s.length = n.length ∧ n.base.toNat ≤ s.address.toNat ∧ s.address.toNat ≤ n.last := by
  constructor
  · intro h
    subst h
    have hrest := Nat.mod_lt s.address.toNat (blockSize_pos s.length)
    have hle := Nat.mod_le s.address.toNat (blockSize s.length)
    refine ⟨rfl, ?_, ?_⟩
    · show s.address.toNat - s.address.toNat % blockSize s.length ≤ s.address.toNat
      omega
    · show s.address.toNat ≤ s.address.toNat - s.address.toNat % blockSize s.length +
        (blockSize s.length - 1)
      omega
  · intro h
    obtain ⟨hlength, hlow, hhigh⟩ := h
    have hrest := n.mod_of_within hlow hhigh
    obtain ⟨address, length⟩ := s
    obtain ⟨⟨base, lt⟩, length', aligned⟩ := n
    obtain rfl : length = length' := hlength
    simp only [network, Network.containing, Network.mk.injEq, Address.mk.injEq, and_true]
    dsimp only at hlow hrest
    omega

/-- The bits that tell the addresses of a network apart are all alike. -/
def HostBits (a : InterfaceAddress) (bit : Bool) : Prop :=
  ∀ i < 32 - a.length.val, a.address.toNat.testBit i = bit

instance (a : InterfaceAddress) (bit : Bool) : Decidable (a.HostBits bit) :=
  inferInstanceAs (Decidable (∀ i < 32 - a.length.val, a.address.toNat.testBit i = bit))

theorem hostBits_iff_mod_eq {a : InterfaceAddress} {bit : Bool} {rest : Nat}
    (hrest : ∀ i, rest.testBit i = (decide (i < 32 - a.length.val) && bit)) :
    a.HostBits bit ↔ a.address.toNat % blockSize a.length = rest := by
  have hmod : ∀ i, (a.address.toNat % blockSize a.length).testBit i =
      (decide (i < 32 - a.length.val) && a.address.toNat.testBit i) := fun i =>
    Nat.testBit_mod_two_pow a.address.toNat (32 - a.length.val) i
  constructor
  · intro h
    apply Nat.eq_of_testBit_eq
    intro i
    rw [hmod, hrest]
    by_cases hi : i < 32 - a.length.val
    · rw [h i hi]
    · simp only [hi, decide_false, Bool.false_and]
  · intro h i hi
    have hbit := hmod i
    rw [h, hrest] at hbit
    simpa only [hi, decide_true, Bool.true_and] using hbit.symm

/-- The base of a network is the address whose host bits are all zero. -/
theorem hostBits_false_iff {a : InterfaceAddress} :
    a.HostBits false ↔ a.address = a.network.base := by
  have hzeros : ∀ i, Nat.testBit 0 i = (decide (i < 32 - a.length.val) && false) := by
    simp only [Nat.zero_testBit, Bool.and_false, implies_true]
  rw [hostBits_iff_mod_eq hzeros]
  have hle := Nat.mod_le a.address.toNat (blockSize a.length)
  obtain ⟨⟨x, lt⟩, length⟩ := a
  simp only [network, Network.containing, Address.mk.injEq]
  dsimp only at hle
  omega

/-- The last address of a network is the one whose host bits are all one. -/
theorem hostBits_true_iff {a : InterfaceAddress} :
    a.HostBits true ↔ a.address.toNat = a.network.last := by
  have hones : ∀ i, (blockSize a.length - 1).testBit i =
      (decide (i < 32 - a.length.val) && true) := by
    intro i
    rw [Bool.and_true]
    exact Nat.testBit_two_pow_sub_one (32 - a.length.val) i
  rw [hostBits_iff_mod_eq hones]
  have hle := Nat.mod_le a.address.toNat (blockSize a.length)
  show _ ↔ a.address.toNat =
    a.address.toNat - a.address.toNat % blockSize a.length + (blockSize a.length - 1)
  omega

end InterfaceAddress

theorem four_le_blockSize {length : PrefixLength} (h : length.val ≤ 30) : 4 ≤ blockSize length := by
  have hroom : 2 ≤ 32 - length.val := by omega
  show 2 ^ 2 ≤ 2 ^ (32 - length.val)
  exact Nat.pow_le_pow_right Nat.two_pos hroom

/-- Where there is room for hosts, the base and the last address are different. -/
theorem InterfaceAddress.not_hostBits_both {a : InterfaceAddress} (h : a.length.val ≤ 30) :
    ¬(a.HostBits false ∧ a.HostBits true) := by
  intro hboth
  obtain ⟨hbase, hlast⟩ := hboth
  have heq := hbase 0 (by omega)
  rw [hlast 0 (by omega)] at heq
  cases heq

namespace Network

/-- An address of the network other than its first and its last one. -/
structure IsHost (n : Network) (s : InterfaceAddress) : Prop where
  network_eq : s.network = n
  ne_base : s.address ≠ n.base
  ne_last : s.address.toNat ≠ n.last

/-- The lowest host of the network. -/
structure IsFirstHost (n : Network) (s : InterfaceAddress) : Prop extends n.IsHost s where
  le : ∀ h, n.IsHost h → s.address.toNat ≤ h.address.toNat

/-- The highest host of the network. -/
structure IsLastHost (n : Network) (s : InterfaceAddress) : Prop extends n.IsHost s where
  ge : ∀ h, n.IsHost h → h.address.toNat ≤ s.address.toNat

theorem isHost_iff {n : Network} {s : InterfaceAddress} :
    n.IsHost s ↔
      s.length = n.length ∧ n.base.toNat < s.address.toNat ∧ s.address.toNat < n.last := by
  have hbase : s.address ≠ n.base ↔ s.address.toNat ≠ n.base.toNat := by
    obtain ⟨⟨x, ltx⟩, length⟩ := s
    obtain ⟨⟨base, lt⟩, length', aligned⟩ := n
    simp only [ne_eq, Address.mk.injEq]
  constructor
  · intro h
    obtain ⟨hlength, hlow, hhigh⟩ := InterfaceAddress.network_eq_iff.mp h.network_eq
    have hne := hbase.mp h.ne_base
    have hne' := h.ne_last
    exact ⟨hlength, by omega, by omega⟩
  · intro h
    obtain ⟨hlength, hlow, hhigh⟩ := h
    exact ⟨InterfaceAddress.network_eq_iff.mpr ⟨hlength, by omega, by omega⟩,
      hbase.mpr (by omega), by omega⟩

theorem toNat_ofNat_of_lt {n : Nat} (h : n < addressCount) : (Address.ofNat n).toNat = n :=
  Nat.mod_eq_of_lt h

/-- One above the base is the first host. -/
theorem isFirstHost_ofNat {n : Network} (h : n.length.val ≤ 30) :
    n.IsFirstHost ⟨.ofNat (n.base.toNat + 1), n.length⟩ := by
  have hsize := four_le_blockSize h
  have hlast : n.last = n.base.toNat + (blockSize n.length - 1) := rfl
  have hlt := n.last_lt
  have hx : (Address.ofNat (n.base.toNat + 1)).toNat = n.base.toNat + 1 :=
    toNat_ofNat_of_lt (by omega)
  have hhost : n.IsHost ⟨.ofNat (n.base.toNat + 1), n.length⟩ :=
    isHost_iff.mpr ⟨rfl, by rw [hx]; omega, by rw [hx]; omega⟩
  refine ⟨hhost, fun other ho => ?_⟩
  obtain ⟨-, hlow, -⟩ := isHost_iff.mp ho
  rw [hx]
  omega

/-- One below the last address is the last host. -/
theorem isLastHost_ofNat {n : Network} (h : n.length.val ≤ 30) :
    n.IsLastHost ⟨.ofNat (n.last - 1), n.length⟩ := by
  have hsize := four_le_blockSize h
  have hlast : n.last = n.base.toNat + (blockSize n.length - 1) := rfl
  have hlt := n.last_lt
  have hx : (Address.ofNat (n.last - 1)).toNat = n.last - 1 := toNat_ofNat_of_lt (by omega)
  have hhost : n.IsHost ⟨.ofNat (n.last - 1), n.length⟩ :=
    isHost_iff.mpr ⟨rfl, by rw [hx]; omega, by rw [hx]; omega⟩
  refine ⟨hhost, fun other ho => ?_⟩
  obtain ⟨-, -, hhigh⟩ := isHost_iff.mp ho
  rw [hx]
  omega

end Network

end RouterConsole.IPv4
