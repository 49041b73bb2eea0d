import RouterConsole.Proofs.IPv4.Hosts
import RouterConsole.Proofs.ValueText

/-!
# How addresses and masks are spelled

An address is spelled in one way, that in which it is printed. A mask is spelled as the number of
its ones, with any zeros in front, or as a dotted address: the one whose leading bits are ones, or
the one whose other bits are. The two addresses with all bits alike could be either, and are taken
for the first. Reading accepts these spellings and nothing else.
-/
namespace RouterConsole.IPv4

/-! ## Decimal numbers -/

section Decimal

variable {cs : List Char}

theorem digitChar_of_isDigit {c : Char} (h : c.isDigit = true) :
    c.toNat - '0'.toNat < 10 ∧ (c.toNat - '0'.toNat).digitChar = c := by
  simp only [Char.isDigit, Bool.and_eq_true, decide_eq_true_eq] at h
  have hlow : 48 ≤ c.toNat := h.1
  have hhigh : c.toNat ≤ 57 := h.2
  have hzero : '0'.toNat = 48 := rfl
  have hlt : c.toNat - '0'.toNat < 10 := by omega
  refine ⟨hlt, Char.toNat_inj.mp ?_⟩
  rw [Nat.toNat_digitChar_of_lt_ten hlt]
  omega

/-- Digits behind the digits of a positive number are the digits of the number that they make
together. -/
theorem toDigits_append {n : Nat} (hn : 0 < n) (h : ∀ c ∈ cs, c.isDigit = true) :
    Nat.toDigits 10 n ++ cs = Nat.toDigits 10 (Nat.ofDigitChars 10 cs n) := by
  induction cs generalizing n with
  | nil => rw [List.append_nil, Nat.ofDigitChars_nil]
  | cons c cs ih =>
    obtain ⟨hc, hcs⟩ := List.forall_mem_cons.mp h
    obtain ⟨hlt, hdigit⟩ := digitChar_of_isDigit hc
    have hone := Nat.toDigits_append_toDigits (b := 10) (by decide) hn hlt
    rw [Nat.toDigits_of_lt_base hlt, hdigit] at hone
    rw [Nat.ofDigitChars_cons, ← ih (by omega) hcs, ← hone, List.append_assoc]
    rfl

/-- A number is written with its digits, and maybe zeros in front. -/
theorem exists_zeros (hne : cs ≠ []) (h : ∀ c ∈ cs, c.isDigit = true) :
    ∃ zeros, cs = List.replicate zeros '0' ++ (toString (ofDecimal cs)).toList := by
  simp only [toList_toString]
  induction cs with
  | nil => exact absurd rfl hne
  | cons c cs ih =>
    obtain ⟨hc, hcs⟩ := List.forall_mem_cons.mp h
    obtain ⟨hlt, hdigit⟩ := digitChar_of_isDigit hc
    by_cases hzero : c = '0'
    · subst hzero
      by_cases hnil : cs = []
      · subst hnil
        exact ⟨0, rfl⟩
      · obtain ⟨zeros, hzeros⟩ := ih hnil hcs
        exact ⟨zeros + 1, congrArg ('0' :: ·) hzeros⟩
    · have hpos : 0 < c.toNat - '0'.toNat := by
        apply Nat.pos_of_ne_zero
        intro h0
        rw [h0] at hdigit
        exact hzero hdigit.symm
      have happend := toDigits_append hpos hcs
      rw [Nat.toDigits_of_lt_base hlt, hdigit] at happend
      refine ⟨0, happend.trans ?_⟩
      simp [ofDecimal, Nat.ofDigitChars_eq_foldl]

theorem ofDecimal_zeros (zeros n : Nat) :
    ofDecimal (List.replicate zeros '0' ++ (toString n).toList) = n := by
  show Nat.ofDigitChars 10 _ 0 = n
  rw [toList_toString, Nat.ofDigitChars_append, Nat.ofDigitChars_replicate_zero, Nat.mul_zero,
    Nat.ofDigitChars_toDigits (by decide) (by decide)]

theorem parseOctet_eq_ok_iff {n : Nat} :
    parseOctet cs = .ok n ↔ n < 256 ∧ cs = (toString n).toList := by
  constructor
  · intro h
    unfold parseOctet at h
    split at h
    · cases h
    rename_i hne
    split at h
    · cases h
    rename_i hdigits
    split at h
    · cases h
    split at h
    · cases h
    rename_i hlead
    split at h
    · cases h
    rename_i hle
    obtain rfl := Except.ok.inj h
    obtain ⟨zeros, hzeros⟩ := exists_zeros hne (by simpa using hdigits)
    refine ⟨by omega, ?_⟩
    cases zeros with
    | zero => exact hzeros
    | succ zeros =>
      have hhead : cs.head? = some '0' := by
        rw [hzeros]
        rfl
      have hsingle : cs = ['0'] := Decidable.byContradiction fun hne => hlead ⟨hne, hhead⟩
      rw [hsingle]
      rfl
  · rintro ⟨hn, rfl⟩
    exact parseOctet_toString hn

end Decimal

/-! ## Addresses -/

/-- Four octets are those of the address that they make up. -/
theorem Address.octets_ofNat {a b c d : Nat} (ha : a < 256) (hb : b < 256) (hc : c < 256)
    (hd : d < 256) :
    (ofNat ([a, b, c, d].foldl (fun n o => 256 * n + o) 0)).octets = [a, b, c, d] := by
  have hfold : [a, b, c, d].foldl (fun n o => 256 * n + o) 0 =
      0x1000000 * a + 0x10000 * b + 0x100 * c + d := by
    simp only [List.foldl_cons, List.foldl_nil]
    omega
  have hlt : 0x1000000 * a + 0x10000 * b + 0x100 * c + d < addressCount := by
    unfold addressCount
    omega
  rw [hfold, octets, Network.toNat_ofNat_of_lt hlt]
  simp only [List.cons.injEq, and_true]
  refine ⟨?_, ?_, ?_, ?_⟩ <;> omega

/-- Only the printed text of an address is read as the address. -/
theorem parseDotted_eq_ok_iff {cs : List Char} {a : Address} :
    parseDotted cs = .ok a ↔ cs = a.text.toList := by
  constructor
  · intro h
    unfold parseDotted at h
    dsimp only at h
    split at h
    · cases h
    split at h
    · rename_i w x y z hsplit
      simp only [List.mapM_cons, List.mapM_nil, bind_eq_ok_iff, mapError_eq_ok_iff,
        parseOctet_eq_ok_iff, pure, Except.pure, Except.ok.injEq, exists_eq_left'] at h
      obtain ⟨_, ⟨k, ⟨hk, rfl⟩, _, ⟨l, ⟨hl, rfl⟩, _, ⟨m, ⟨hm, rfl⟩, _, ⟨n, ⟨hn, rfl⟩, rfl⟩, rfl⟩,
        rfl⟩, rfl⟩, rfl⟩ := h
      rw [Address.toList_text, Address.octets_ofNat hk hl hm hn, ← Text.intercalate_splitAt '.' cs,
        hsplit]
      rfl
    · cases h
  · rintro rfl
    exact parseDotted_text a

/-! ## Masks -/

theorem blockSize_le (l : PrefixLength) : blockSize l ≤ addressCount :=
  Nat.pow_le_pow_right Nat.two_pos (Nat.sub_le 32 l.val)

theorem hostmask_lt (l : PrefixLength) : blockSize l - 1 < addressCount :=
  Nat.lt_of_lt_of_le (Nat.sub_one_lt_of_lt (blockSize_pos l)) (blockSize_le l)

theorem testBit_hostmask (l : PrefixLength) (i : Nat) :
    (blockSize l - 1).testBit i = decide (i < 32 - l.val) :=
  Nat.testBit_two_pow_sub_one (32 - l.val) i

theorem testBit_netmask (l : PrefixLength) (i : Nat) :
    (netmask l).testBit i = (decide (i < 32) && decide (32 - l.val ≤ i)) := by
  have hlt : blockSize l - 1 < 2 ^ 32 := hostmask_lt l
  have hsub : netmask l = 2 ^ 32 - (blockSize l - 1 + 1) := by
    rw [Nat.sub_add_cancel (blockSize_pos l)]
    rfl
  rw [hsub, Nat.testBit_two_pow_sub_succ hlt, testBit_hostmask]
  congr 1
  rw [← decide_not]
  exact decide_eq_decide.mpr Nat.not_lt

/-- The address whose leading bits are ones and whose others are zeros. -/
def IsNetmask (l : PrefixLength) (m : Address) : Prop :=
  ∀ i < 32, m.toNat.testBit i = decide (32 - l.val ≤ i)

/-- The address whose leading bits are zeros and whose others are ones. -/
def IsHostmask (l : PrefixLength) (m : Address) : Prop :=
  ∀ i < 32, m.toNat.testBit i = decide (i < 32 - l.val)

theorem toNat_eq_iff_testBit {m : Address} {n : Nat} (hn : n < 2 ^ 32) :
    m.toNat = n ↔ ∀ i < 32, m.toNat.testBit i = n.testBit i := by
  constructor
  · intro h i _
    rw [h]
  · intro h
    apply Nat.eq_of_testBit_eq
    intro i
    by_cases hi : i < 32
    · exact h i hi
    · have hbig : 2 ^ 32 ≤ 2 ^ i := Nat.pow_le_pow_right Nat.two_pos (Nat.le_of_not_lt hi)
      have hm : m.toNat < 2 ^ 32 := m.lt_count
      rw [Nat.testBit_lt_two_pow (Nat.lt_of_lt_of_le hm hbig),
        Nat.testBit_lt_two_pow (Nat.lt_of_lt_of_le hn hbig)]

theorem isNetmask_iff {l : PrefixLength} {m : Address} : IsNetmask l m ↔ m.toNat = netmask l := by
  have hlt : netmask l < 2 ^ 32 := Nat.sub_lt (by decide) (blockSize_pos l)
  rw [toNat_eq_iff_testBit hlt]
  refine forall₂_congr fun i hi => ?_
  rw [testBit_netmask, decide_eq_true hi, Bool.true_and]

theorem isHostmask_iff {l : PrefixLength} {m : Address} :
    IsHostmask l m ↔ m.toNat = blockSize l - 1 := by
  rw [toNat_eq_iff_testBit (hostmask_lt l)]
  refine forall₂_congr fun i _ => ?_
  rw [testBit_hostmask]

/-- With every bit turned, the netmask is the hostmask. -/
theorem netmask_eq_flipped_iff {m : Address} {l : PrefixLength} :
    netmask l = addressCount - 1 - m.toNat ↔ m.toNat = blockSize l - 1 := by
  have hpos := blockSize_pos l
  have hle := blockSize_le l
  have hlt := m.lt_count
  unfold netmask
  omega

theorem find?_netmask_eq_some_iff {n : Nat} {l : PrefixLength} :
    ((List.finRange 33).find? fun l => netmask l == n) = some l ↔ netmask l = n := by
  have hinjective : ∀ l l' : PrefixLength, netmask l = netmask l' → l = l' := by decide +kernel
  have hfound : ∀ l, ((List.finRange 33).find? fun l => netmask l == n) = some l →
      netmask l = n := fun l h => by simpa using List.find?_some h
  refine ⟨hfound l, fun h => ?_⟩
  cases hf : (List.finRange 33).find? fun l => netmask l == n with
  | none => exact absurd (beq_iff_eq.mpr h) (List.find?_eq_none.mp hf l (List.mem_finRange l))
  | some l' => rw [hinjective l' l ((hfound l' hf).trans h.symm)]

/-- A dotted mask has ones in front or zeros in front. With all bits alike it counts as the
first. -/
theorem maskLength?_eq_some_iff {m : Address} {l : PrefixLength} :
    maskLength? m = some l ↔ IsNetmask l m ∨ (0 < l.val ∧ l.val < 32 ∧ IsHostmask l m) := by
  have hapart : ∀ l l' : PrefixLength, 0 < l.val → l.val < 32 → blockSize l - 1 ≠ netmask l' := by
    decide +kernel
  rw [maskLength?, isNetmask_iff, isHostmask_iff]
  dsimp only
  cases hf : (List.finRange 33).find? fun l => netmask l == m.toNat with
  | some l' =>
    have hl' := find?_netmask_eq_some_iff.mp hf
    show some l' = some l ↔ _
    rw [← hf, find?_netmask_eq_some_iff, eq_comm, or_iff_left]
    rintro ⟨hpos, hlt, hm⟩
    exact hapart l l' hpos hlt (hm.symm.trans hl'.symm)
  | none =>
    have hnone : ∀ l', m.toNat ≠ netmask l' := fun l' h =>
      List.find?_eq_none.mp hf l' (List.mem_finRange l') (beq_iff_eq.mpr h.symm)
    show ((List.finRange 33).find? fun l => netmask l == addressCount - 1 - m.toNat) = some l ↔ _
    rw [find?_netmask_eq_some_iff, netmask_eq_flipped_iff, or_iff_right (hnone l)]
    refine ⟨fun hm => ⟨?_, ?_, hm⟩, fun h => h.2.2⟩
    · apply Nat.pos_of_ne_zero
      intro h0
      exact hnone 32 (hm.trans (by rw [Fin.ext h0 (b := 0)]; rfl))
    · have hle32 : l.val ≤ 32 := Nat.le_of_lt_succ l.isLt
      apply Nat.lt_of_le_of_ne hle32
      intro h32
      exact hnone 0 (hm.trans (by rw [Fin.ext h32 (b := 32)]; rfl))

/-- The spellings of a mask. -/
inductive MaskSpelling (l : PrefixLength) : List Char → Prop
  | prefixLength {zeros : Nat} : zeros + (toString l.val).length ≤ Text.maxDigits →
      MaskSpelling l (List.replicate zeros '0' ++ (toString l.val).toList)
  | netmask {m : Address} : IsNetmask l m → MaskSpelling l m.text.toList
  | hostmask {m : Address} : 0 < l.val → l.val < 32 → IsHostmask l m → MaskSpelling l m.text.toList

theorem prefixLength?_eq_some_iff {cs : List Char} {l : PrefixLength} :
    prefixLength? cs = some l ↔ ∃ zeros, zeros + (toString l.val).length ≤ Text.maxDigits ∧
      cs = List.replicate zeros '0' ++ (toString l.val).toList := by
  unfold prefixLength?
  constructor
  · intro h
    split at h
    · rename_i hcs
      obtain ⟨hne, hdigits, hlength⟩ := hcs
      split at h
      · obtain rfl := Option.some.inj h
        obtain ⟨zeros, hzeros⟩ := exists_zeros hne (List.all_eq_true.mp hdigits)
        refine ⟨zeros, ?_, hzeros⟩
        rw [hzeros, List.length_append, List.length_replicate, String.length_toList] at hlength
        exact hlength
      · cases h
    · cases h
  · rintro ⟨zeros, hlength, rfl⟩
    have hvalue := ofDecimal_zeros zeros l.val
    have hne : List.replicate zeros '0' ++ (toString l.val).toList ≠ [] :=
      List.append_ne_nil_of_right_ne_nil _ (toString_ne_nil l.val)
    have hdigits :
        (List.replicate zeros '0' ++ (toString l.val).toList).all Char.isDigit = true := by
      rw [List.all_append, List.all_replicate, Bool.and_eq_true]
      exact ⟨by simp, List.all_eq_true.mpr fun c hc => isDigit_of_mem_toString hc⟩
    have hcount : (List.replicate zeros '0' ++ (toString l.val).toList).length ≤
        Text.maxDigits := by
      rwa [List.length_append, List.length_replicate, String.length_toList]
    have hlt : ofDecimal (List.replicate zeros '0' ++ (toString l.val).toList) < 33 := by
      rw [hvalue]
      exact l.isLt
    rw [if_pos ⟨hne, hdigits, hcount⟩, dif_pos hlt]
    exact congrArg some (Fin.ext hvalue)

/-- A dotted text is no number. -/
theorem prefixLength?_text (m : Address) : prefixLength? m.text.toList = none := by
  unfold prefixLength?
  refine if_neg fun h => ?_
  have hpoint : '.' ∈ m.text.toList := by
    rw [Address.toList_text]
    simp [Address.octets]
  exact absurd (List.all_eq_true.mp h.2.1 '.' hpoint) (by decide)

theorem parseMask_eq_ok_iff {cs : List Char} {l : PrefixLength} :
    parseMask cs = .ok l ↔ MaskSpelling l cs := by
  constructor
  · intro h
    unfold parseMask at h
    split at h
    · rename_i hlength
      obtain rfl := Except.ok.inj h
      obtain ⟨zeros, hle, rfl⟩ := prefixLength?_eq_some_iff.mp hlength
      exact .prefixLength hle
    · split at h
      · rename_i hmask
        obtain rfl := Except.ok.inj h
        obtain ⟨m, hm, hlength⟩ := Option.bind_eq_some_iff.mp hmask
        obtain rfl := parseDotted_eq_ok_iff.mp (eq_ok_of_toOption hm)
        rcases maskLength?_eq_some_iff.mp hlength with hnet | ⟨hpos, hlt, hhost⟩
        · exact .netmask hnet
        · exact .hostmask hpos hlt hhost
      · cases h
  · intro h
    have hdotted : ∀ m : Address, maskLength? m = some l → parseMask m.text.toList = .ok l := by
      intro m hm
      rw [parseMask, prefixLength?_text, parseDotted_text]
      simp only [Except.toOption, Option.bind_some, hm]
    cases h with
    | prefixLength hle =>
      rw [parseMask, prefixLength?_eq_some_iff.mpr ⟨_, hle, rfl⟩]
    | netmask hm => exact hdotted _ (maskLength?_eq_some_iff.mpr (.inl hm))
    | hostmask hpos hlt hm => exact hdotted _ (maskLength?_eq_some_iff.mpr (.inr ⟨hpos, hlt, hm⟩))

theorem MaskSpelling.slash_not_mem {cs : List Char} {l : PrefixLength} (h : MaskSpelling l cs) :
    '/' ∉ cs := by
  cases h with
  | prefixLength _ =>
    intro hc
    rcases List.mem_append.mp hc with hc | hc
    · exact absurd (List.eq_of_mem_replicate hc) (by decide)
    · exact not_mem_toString (by decide) hc
  | netmask _ | hostmask _ _ _ => exact Address.slash_not_mem_text _

/-- What is read of a text with a mask are the address and the length of the mask. -/
theorem parseMasked_eq_ok_iff {s : String} (hs : '/' ∈ s.toList) {a : Address} {l : PrefixLength} :
    parseMasked s = .ok (a, l) ↔
      ∃ mask, s.toList = a.text.toList ++ '/' :: mask ∧ MaskSpelling l mask := by
  constructor
  · intro h
    have hjoin := Text.intercalate_splitAt '/' s.toList
    unfold parseMasked at h
    split at h
    · rename_i w hsplit
      have hw : '/' ∉ w := Text.not_mem_of_mem_splitAt (hsplit ▸ List.mem_singleton_self w)
      rw [hsplit, List.intercalate_singleton] at hjoin
      exact absurd (hjoin ▸ hs) hw
    · rename_i w mask hsplit
      obtain ⟨a', ha, h⟩ := bind_eq_ok_iff.mp h
      obtain ⟨l', hl, h⟩ := bind_eq_ok_iff.mp h
      obtain ⟨rfl, rfl⟩ := Prod.mk.inj (Except.ok.inj h)
      obtain rfl := parseDotted_eq_ok_iff.mp ha
      rw [hsplit, List.intercalate_cons_cons, List.intercalate_singleton,
        List.append_assoc] at hjoin
      exact ⟨mask, hjoin.symm, parseMask_eq_ok_iff.mp hl⟩
    · cases h
  · rintro ⟨mask, hmask, hl⟩
    have hsplit : Text.splitAt '/' s.toList = [a.text.toList, mask] := by
      rw [hmask, Text.splitAt_part a.slash_not_mem_text, Text.splitAt_of_not_mem hl.slash_not_mem]
    rw [parseMasked, hsplit]
    simp only [parseDotted_text, parseMask_eq_ok_iff.mpr hl]
    rfl

end RouterConsole.IPv4
