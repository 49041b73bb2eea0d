import RouterConsole.Proofs.IPv4.Spelling

/-!
# Networks and interface addresses are read alike

A network is written like an interface address and read from the same texts. Of the address it keeps
the bits under the mask. What is read is printed in one of its spellings, so that reading a text,
printing the value and reading it again is the same as reading the text.
-/
namespace RouterConsole

open IPv4 (Address InterfaceAddress MaskSpelling Network)

namespace IPv4

/-- The base of a network keeps the leading bits of its addresses; the others are zeros. -/
theorem InterfaceAddress.testBit_base (a : InterfaceAddress) (i : Nat) :
    a.network.base.toNat.testBit i =
      (decide (32 - a.length.val ≤ i) && a.address.toNat.testBit i) := by
  have hbase : a.network.base.toNat =
      2 ^ (32 - a.length.val) * (a.address.toNat / 2 ^ (32 - a.length.val)) := by
    have hmod := Nat.div_add_mod a.address.toNat (2 ^ (32 - a.length.val))
    show a.address.toNat - a.address.toNat % 2 ^ (32 - a.length.val) = _
    omega
  rw [hbase, Nat.testBit_two_pow_mul, Nat.testBit_div_two_pow]
  by_cases hi : 32 - a.length.val ≤ i
  · rw [Nat.sub_add_cancel hi]
  · simp only [ge_iff_le, hi, decide_false, Bool.false_and]

end IPv4

namespace Value

variable {s : String}

theorem hasMask_iff : hasMask s = true ↔ '/' ∈ s.toList := List.contains_iff_mem

theorem interfaceAddress_eq_ok_iff {a : InterfaceAddress} :
    interfaceAddress s = .ok a ↔
      ∃ mask, s.toList = a.address.text.toList ++ '/' :: mask ∧ MaskSpelling a.length mask := by
  unfold interfaceAddress
  split
  · rename_i hs
    rw [mapError_eq_ok_iff, ← IPv4.parseMasked_eq_ok_iff (hasMask_iff.mp hs),
      InterfaceAddress.parse, bind_eq_ok_iff]
    constructor
    · rintro ⟨p, hp, h⟩
      obtain rfl := Except.ok.inj h
      exact hp
    · intro h
      exact ⟨_, h, rfl⟩
  · rename_i hs
    constructor
    · intro h
      cases h
    · rintro ⟨mask, hmask, -⟩
      refine absurd (hasMask_iff.mpr ?_) hs
      rw [hmask]
      simp

/-- A network is read from the texts of the interface addresses in it. -/
theorem network_eq (s : String) : network s =
    if hasMask s then (interfaceAddress s).map InterfaceAddress.network
    else .error .networkWithoutMask := by
  unfold network interfaceAddress Network.parse InterfaceAddress.parse
  split
  · cases IPv4.parseMasked s <;> rfl
  · rfl

theorem network_eq_ok_iff {n : Network} :
    network s = .ok n ↔ ∃ a, interfaceAddress s = .ok a ∧ a.network = n := by
  rw [network_eq]
  split
  · exact map_eq_ok_iff
  · rename_i hs
    constructor
    · intro h
      cases h
    · rintro ⟨a, ha, -⟩
      rw [interfaceAddress, if_neg hs] at ha
      cases ha

/-- Nothing changes when what was read is printed and read again, if printed values are read
back. -/
theorem read_printed {α : Type} {read : String → Except ValueFault α} {text : α → String}
    (hback : ∀ a, read (text a) = .ok a) (s : String) :
    (read s >>= fun a => read (text a)) = read s := by
  cases h : read s with
  | error e => rfl
  | ok a => exact hback a

end Value

/-- A text is read as a network exactly if it is read as an interface address, which it is if it
spells the address and a mask. The network is that of the address: it has the bits of the address
under the mask, and no others. Printed values are read back, so printing what was read and reading
it again changes nothing. -/
theorem networks_are_read_as_interface_addresses :
    (∀ s a, Value.interfaceAddress s = .ok a ↔
      ∃ mask, s.toList = a.address.text.toList ++ '/' :: mask ∧ MaskSpelling a.length mask) ∧
    (∀ s n, Value.network s = .ok n ↔ ∃ a, Value.interfaceAddress s = .ok a ∧ a.network = n) ∧
    (∀ a : InterfaceAddress, a.network.length = a.length ∧ a.length.val ≤ 32 ∧
      ∀ i, a.network.base.toNat.testBit i =
        (decide (32 - a.length.val ≤ i) && a.address.toNat.testBit i)) ∧
    (∀ a, Value.interfaceAddress (InterfaceAddress.text a) = .ok a) ∧
    (∀ n, Value.network (Network.text n) = .ok n) ∧
    (∀ s, (Value.interfaceAddress s >>= fun a => Value.interfaceAddress a.text) =
      Value.interfaceAddress s) ∧
    ∀ s, (Value.network s >>= fun n => Value.network n.text) = Value.network s := by
  have hmasked (a : InterfaceAddress) : a.network.length = a.length ∧ a.length.val ≤ 32 ∧
      ∀ i, a.network.base.toNat.testBit i =
        (decide (32 - a.length.val ≤ i) && a.address.toNat.testBit i) :=
    ⟨rfl, Nat.le_of_lt_succ a.length.isLt, a.testBit_base⟩
  have haddress := Value.interfaceAddress_text
  have hnetwork := Value.network_text
  exact ⟨fun _ _ => Value.interfaceAddress_eq_ok_iff, fun _ _ => Value.network_eq_ok_iff, hmasked,
    haddress, hnetwork, Value.read_printed haddress, Value.read_printed hnetwork⟩

end RouterConsole
