import RouterConsole.Proofs.IPv4.Hosts
import RouterConsole.Proofs.Router.Effects

/-!
# Refused addresses and what is suggested instead

An address is refused as unusable exactly for its host bits, and then the refusal carries the host
next to it in the same network, which the interface can have.
-/
namespace RouterConsole

open IPv4 (InterfaceAddress Network)

/-- What all host bits of an address with this problem are. -/
def AddressProblem.hostBit : AddressProblem → Bool
  | .network => false
  | .broadcast => true

/-- The host next to the address of the network that has this problem. -/
def AddressProblem.Suggests (n : Network) (s : InterfaceAddress) : AddressProblem → Prop
  | .network => n.IsFirstHost s
  | .broadcast => n.IsLastHost s

theorem AddressProblem.Suggests.isHost {n : Network} {s : InterfaceAddress}
    {problem : AddressProblem} (h : problem.Suggests n s) : n.IsHost s := by
  cases problem with
  | network => exact h.toIsHost
  | broadcast => exact h.toIsHost

namespace IPv4.InterfaceAddress

theorem isHostOnly_eq_false_iff {a : InterfaceAddress} :
    a.isHostOnly = false ↔ a.length.val ≤ 30 := by
  rw [isHostOnly, decide_eq_false_iff_not]
  omega

theorem isNetworkAddress_iff {a : InterfaceAddress} :
    a.isNetworkAddress = true ↔ a.length.val ≤ 30 ∧ a.HostBits false := by
  rw [isNetworkAddress, Bool.and_eq_true, Bool.not_eq_true', isHostOnly_eq_false_iff, beq_iff_eq,
    hostBits_false_iff]

theorem isBroadcastAddress_iff {a : InterfaceAddress} :
    a.isBroadcastAddress = true ↔ a.length.val ≤ 30 ∧ a.HostBits true := by
  rw [isBroadcastAddress, Bool.and_eq_true, Bool.not_eq_true', isHostOnly_eq_false_iff, beq_iff_eq,
    hostBits_true_iff]

end IPv4.InterfaceAddress

open IPv4.InterfaceAddress

theorem addressProblem?_eq_some_iff {a : InterfaceAddress} {problem : AddressProblem} :
    addressProblem? a = some problem ↔ a.length.val ≤ 30 ∧ a.HostBits problem.hostBit := by
  unfold addressProblem?
  by_cases hnet : a.isNetworkAddress = true
  · obtain ⟨hroom, hzero⟩ := isNetworkAddress_iff.mp hnet
    rw [if_pos hnet, Option.some.injEq]
    cases problem with
    | network => exact ⟨fun _ => ⟨hroom, hzero⟩, fun _ => rfl⟩
    | broadcast => exact ⟨nofun, fun h => absurd ⟨hzero, h.2⟩ (not_hostBits_both hroom)⟩
  · rw [if_neg hnet]
    cases problem with
    | network =>
      refine ⟨fun h => ?_, fun h => absurd (isNetworkAddress_iff.mpr h) hnet⟩
      split at h <;> cases h
    | broadcast =>
      show _ ↔ a.length.val ≤ 30 ∧ a.HostBits true
      rw [← isBroadcastAddress_iff]
      by_cases hlast : a.isBroadcastAddress = true
      · rw [if_pos hlast]
        exact ⟨fun _ => hlast, fun _ => rfl⟩
      · rw [if_neg hlast]
        exact ⟨nofun, fun h => absurd h hlast⟩

/-- Every refused address comes with the host next to it. -/
theorem exists_suggestion {a : InterfaceAddress} {problem : AddressProblem}
    (h : addressProblem? a = some problem) :
    ∃ s, a.suggestion? = some s ∧ problem.Suggests a.network s := by
  obtain ⟨hroom, hbits⟩ := addressProblem?_eq_some_iff.mp h
  have hhosts := isHostOnly_eq_false_iff.mpr hroom
  unfold suggestion?
  rw [hhosts, if_neg Bool.false_ne_true]
  cases problem with
  | network =>
    have hother : ¬a.isBroadcastAddress = true := fun hb =>
      not_hostBits_both hroom ⟨hbits, (isBroadcastAddress_iff.mp hb).2⟩
    rw [if_neg hother]
    exact ⟨_, rfl, Network.isFirstHost_ofNat hroom⟩
  | broadcast =>
    rw [if_pos (isBroadcastAddress_iff.mpr ⟨hroom, hbits⟩)]
    exact ⟨_, rfl, Network.isLastHost_ofNat hroom⟩

/-- An interface may have any host of a network. -/
theorem addressProblem?_of_isHost {n : Network} {s : InterfaceAddress} (h : n.IsHost s) :
    addressProblem? s = none := by
  apply addressProblem?_eq_none_iff.mpr
  intro _
  obtain ⟨rfl, hbase, hlast⟩ := h
  exact ⟨hbase, hlast⟩

namespace Configuration

theorem exists_settings {c : Configuration} {name : String} (h : name ∈ c.names) :
    ∃ old admin, c.settings name = some (old, admin) := by
  cases hs : c.settings name with
  | none => exact absurd h (settings_eq_none_iff.mp hs)
  | some s => exact ⟨s.1, s.2, rfl⟩

/-- An address is refused as unusable for its problem alone, whatever the interface has. -/
theorem refused_unusable_iff {c : Configuration} {name : String} (hn : name ∈ c.names)
    {a b : InterfaceAddress} {problem : AddressProblem} {s? : Option InterfaceAddress} :
    Refused c (.setAddress name a) (.unusableAddress b problem s?) ↔
      addressProblem? a = some problem ∧ b = a ∧ s? = a.suggestion? := by
  constructor
  · intro h
    cases h with
    | unusable _ hp => exact ⟨hp, rfl, rfl⟩
  · intro h
    obtain ⟨hp, rfl, rfl⟩ := h
    obtain ⟨old, admin, hs⟩ := exists_settings hn
    exact .unusable hs hp

/-- A usable address is set, or is the one that the interface has. -/
theorem edit_usable {c : Configuration} {name : String} (hn : name ∈ c.names)
    {a : InterfaceAddress} (ha : addressProblem? a = none) :
    (∃ c', c.edit (.setAddress name a) = .ok c' ∧ c'.address? name = some a) ∨
      (c.edit (.setAddress name a) = .error .addressExists ∧ c.address? name = some a) := by
  obtain ⟨old, admin, hs⟩ := exists_settings hn
  by_cases hold : old = some a
  · subst hold
    exact .inr ⟨(Refused.addressThere hs ha).edit_eq, address?_of_settings hs⟩
  · refine .inl ⟨_, (Edited.setAddress hs ha hold).edit_eq, ?_⟩
    exact address?_of_settings (settings_updated_address hs (some a))

end Configuration

namespace Router

theorem edit_eq_error_iff {r : Router} (hm : r.mode = .configuration) {e : Edit}
    {err : RouterError} : r.edit e = .error err ↔ Configuration.Refused r.staged e err := by
  rw [edit_of_configuration hm, ← Configuration.edit_eq_error_iff]
  cases r.staged.edit e <;> simp [Except.map]

/-- Setting the address of an interface that exists, in configuration mode, is refused as unusable
exactly if the prefix is at most 30 bits long and the host bits are all zero, which is the problem
of a network address, or all one, which is that of a broadcast address; they are never both. The
refusal names the address and carries a host of the same network with the same prefix length: the
first one for a network address and the last one for a broadcast address. The interface can have
this host: setting it succeeds, unless it is what the interface has already. -/
theorem unusable_address_has_suggestion {r : Router} (hm : r.mode = .configuration)
    {name : String} (hn : name ∈ r.staged.names) (a : InterfaceAddress) :
    (a.length.val ≤ 30 → ¬(a.HostBits false ∧ a.HostBits true)) ∧
      (∀ problem : AddressProblem,
        (∃ b s?, r.edit (.setAddress name a) = .error (.unusableAddress b problem s?)) ↔
          a.length.val ≤ 30 ∧ a.HostBits problem.hostBit) ∧
      ∀ b problem s?, r.edit (.setAddress name a) = .error (.unusableAddress b problem s?) →
        b = a ∧ ∃ s, s? = some s ∧ s.network = a.network ∧ s.length = a.length ∧
          (problem = .network → a.network.IsFirstHost s) ∧
          (problem = .broadcast → a.network.IsLastHost s) ∧
          s.address ≠ s.network.base ∧ s.address.toNat ≠ s.network.last ∧
          ((∃ r', r.edit (.setAddress name s) = .ok r' ∧ r'.staged.address? name = some s) ∨
            (r.edit (.setAddress name s) = .error .addressExists ∧
              r.staged.address? name = some s)) := by
  refine ⟨not_hostBits_both, fun problem => ?_, fun b problem s? h => ?_⟩
  · simp only [edit_eq_error_iff hm, Configuration.refused_unusable_iff hn,
      ← addressProblem?_eq_some_iff]
    exact ⟨fun ⟨_, _, hp, _⟩ => hp, fun hp => ⟨a, a.suggestion?, hp, rfl, rfl⟩⟩
  · obtain ⟨hp, rfl, rfl⟩ := (Configuration.refused_unusable_iff hn).mp
      ((edit_eq_error_iff hm).mp h)
    obtain ⟨s, hs, hsuggests⟩ := exists_suggestion hp
    have hhost := hsuggests.isHost
    have hnetwork := hhost.network_eq
    have hlength : s.length = b.length := congrArg Network.length hnetwork
    refine ⟨rfl, s, hs, hnetwork, hlength, ?_, ?_, hnetwork ▸ hhost.ne_base,
      hnetwork ▸ hhost.ne_last, ?_⟩
    · intro hproblem
      subst hproblem
      exact hsuggests
    · intro hproblem
      subst hproblem
      exact hsuggests
    · obtain ⟨c', hc, ha⟩ | ⟨hc, ha⟩ :=
        Configuration.edit_usable hn (addressProblem?_of_isHost hhost)
      · exact .inl ⟨_, edit_eq_ok_iff.mpr ⟨hm, c', hc, rfl⟩, ha⟩
      · have hrefused := Configuration.edit_eq_error_iff.mp hc
        exact .inr ⟨(edit_eq_error_iff hm).mpr hrefused, ha⟩

/-- The first address of a /30 network is refused, and the suggestion is the address that the
interface has; the last of all addresses, in the network of all addresses, is refused as well, and
the one below it can be set. -/
theorem unusable_address_has_suggestion_at_the_edges :
    let fresh := Interface.fresh "eth0" ⟨.replicate 6 2⟩
    let r := (new "edge" [{ fresh with address := some ⟨.ofNat 0x0A000001, 30⟩ }]).after
      (.setMode .configuration)
    let low : InterfaceAddress := ⟨.ofNat 0x0A000000, 30⟩
    let high : InterfaceAddress := ⟨.ofNat 0xFFFFFFFF, 0⟩
    let belowHigh : InterfaceAddress := ⟨.ofNat 0xFFFFFFFE, 0⟩
    r.edit (.setAddress "eth0" low) =
        .error (.unusableAddress low .network (some ⟨.ofNat 0x0A000001, 30⟩)) ∧
      r.edit (.setAddress "eth0" ⟨.ofNat 0x0A000001, 30⟩) = .error .addressExists ∧
      r.edit (.setAddress "eth0" high) =
        .error (.unusableAddress high .broadcast (some belowHigh)) ∧
      ∃ r', r.edit (.setAddress "eth0" belowHigh) = .ok r' := by
  intro fresh r low high belowHigh
  have hm : r.mode = .configuration := by decide
  have hn : "eth0" ∈ r.staged.names := by decide
  have hlow : r.edit (.setAddress "eth0" low) =
      .error (.unusableAddress low .network (some ⟨.ofNat 0x0A000001, 30⟩)) := by decide
  have hhigh : r.edit (.setAddress "eth0" high) =
      .error (.unusableAddress high .broadcast (some belowHigh)) := by decide
  obtain ⟨-, -, hsuggested⟩ := unusable_address_has_suggestion hm hn low
  obtain ⟨-, -, hsuggested'⟩ := unusable_address_has_suggestion hm hn high
  obtain ⟨-, s, ⟨⟩, -, -, -, -, -, -, hset⟩ := hsuggested _ _ _ hlow
  obtain ⟨-, s', ⟨⟩, -, -, -, -, -, -, hset'⟩ := hsuggested' _ _ _ hhigh
  refine ⟨hlow, ?_, hhigh, ?_⟩
  · obtain ⟨r', hr, -⟩ | ⟨hr, -⟩ := hset
    · cases hr
    · exact hr
  · obtain ⟨r', hr, -⟩ | ⟨-, hr⟩ := hset'
    · exact ⟨r', hr⟩
    · exact absurd hr (by decide)

end Router

end RouterConsole
