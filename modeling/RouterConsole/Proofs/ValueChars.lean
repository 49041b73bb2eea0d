import RouterConsole.Proofs.ValueText

/-!
# The characters of values that are read

A text that is read as an address, a network or a distance is made of the characters that such
values are written with. A brace is none of them.
-/
namespace RouterConsole

/-- A text in which no brace stands. -/
def Braceless (s : String) : Prop := '\x7b' ∉ s.toList ∧ '\x7d' ∉ s.toList

instance (s : String) : Decidable (Braceless s) := inferInstanceAs (Decidable (_ ∧ _))

theorem PlainWord.of_braceless {w : String} (hw : Text.IsWord w.toList) (h : Braceless w) :
    PlainWord w := ⟨hw, h.1, h.2⟩

/-- A text whose characters are of a class without braces. -/
theorem braceless_of_forall {s : String} {p : Char → Bool} (h : ∀ c ∈ s.toList, p c = true)
    (hopen : p '\x7b' = false) (hclose : p '\x7d' = false) : Braceless s := by
  constructor
  · intro hc
    rw [h _ hc] at hopen
    cases hopen
  · intro hc
    rw [h _ hc] at hclose
    cases hclose

namespace Text

theorem eq_or_mem_splitAt (sep : Char) {c : Char} {cs : List Char} (h : c ∈ cs) :
    c = sep ∨ ∃ p ∈ splitAt sep cs, c ∈ p := by
  induction cs with
  | nil => cases h
  | cons d cs ih =>
    unfold splitAt
    split
    · rename_i hd
      rcases List.mem_cons.mp h with rfl | h
      · exact .inl hd
      · rcases ih h with hsep | ⟨p, hp, hc⟩
        · exact .inl hsep
        · exact .inr ⟨p, List.mem_cons_of_mem _ hp, hc⟩
    · split
      · rename_i hs
        exact absurd hs (splitAt_ne_nil sep cs)
      · rename_i q qs hs
        rw [hs] at ih
        rcases List.mem_cons.mp h with rfl | h
        · exact .inr ⟨c :: q, List.mem_cons_self, List.mem_cons_self⟩
        · rcases ih h with hsep | ⟨p, hp, hc⟩
          · exact .inl hsep
          · rcases List.mem_cons.mp hp with rfl | hp
            · exact .inr ⟨d :: p, List.mem_cons_self, List.mem_cons_of_mem d hc⟩
            · exact .inr ⟨p, List.mem_cons_of_mem _ hp, hc⟩

/-- The characters that a number may be written with. -/
def isNumberChar (c : Char) : Bool :=
  isNumberSpace c || c == '-' || c == '+' || c == '_' || (digitValue? c).isSome

theorem isNumberChar_of_digitRun? {afterDigit : Bool} {cs : List Char} {ds : List Nat}
    (h : digitRun? afterDigit cs = some ds) : ∀ c ∈ cs, isNumberChar c = true := by
  induction cs generalizing afterDigit ds with
  | nil => exact nofun
  | cons c cs ih =>
    rw [List.forall_mem_cons]
    unfold digitRun? at h
    split at h
    · rename_i hc
      subst hc
      split at h
      · exact ⟨by decide, ih h⟩
      · cases h
    · obtain ⟨d, hd, h⟩ := Option.bind_eq_some_iff.mp h
      obtain ⟨rest, hrest, -⟩ := Option.bind_eq_some_iff.mp h
      exact ⟨by simp [isNumberChar, hd], ih hrest⟩

theorem isNumberChar_of_natural? {cs : List Char} {n : Nat} (h : natural? cs = some n) :
    ∀ c ∈ cs, isNumberChar c = true := by
  obtain ⟨ds, hds, -⟩ := Option.bind_eq_some_iff.mp h
  exact isNumberChar_of_digitRun? hds

theorem isNumberChar_of_dropWhile {cs : List Char}
    (h : ∀ c ∈ cs.dropWhile isNumberSpace, isNumberChar c = true) :
    ∀ c ∈ cs, isNumberChar c = true := by
  intro c hc
  rw [← List.takeWhile_append_dropWhile (p := isNumberSpace) (l := cs)] at hc
  rcases List.mem_append.mp hc with hc | hc
  · have hspace := List.all_eq_true.mp List.all_takeWhile c hc
    simp only [isNumberChar, hspace, Bool.true_or]
  · exact h c hc

theorem isNumberChar_of_integer? {s : String} {n : Int} (h : integer? s = some n) :
    ∀ c ∈ s.toList, isNumberChar c = true := by
  refine isNumberChar_of_dropWhile fun c hc => ?_
  refine isNumberChar_of_dropWhile (fun c hc => ?_) c (List.mem_reverse.mpr hc)
  rw [← List.mem_reverse] at hc
  unfold integer? at h
  dsimp only at h
  generalize ((s.toList.dropWhile isNumberSpace).reverse.dropWhile isNumberSpace).reverse = body
    at h hc
  split at h
  · obtain ⟨_, hm, -⟩ := Option.map_eq_some_iff.mp h
    obtain ⟨m, hm, -⟩ := Option.bind_eq_some_iff.mp hm
    exact List.forall_mem_cons.mpr ⟨by decide, isNumberChar_of_natural? hm⟩ c hc
  · obtain ⟨m, hm, -⟩ := Option.map_eq_some_iff.mp h
    exact List.forall_mem_cons.mpr ⟨by decide, isNumberChar_of_natural? hm⟩ c hc
  · obtain ⟨m, hm, -⟩ := Option.map_eq_some_iff.mp h
    exact isNumberChar_of_natural? hm c hc

end Text

namespace IPv4

theorem isDigit_of_parseOctet {cs : List Char} {n : Nat} (h : parseOctet cs = .ok n) :
    ∀ c ∈ cs, c.isDigit = true := by
  unfold parseOctet at h
  split at h
  · cases h
  · split at h
    · cases h
    · rename_i hdigits
      simpa using hdigits

theorem isValueChar_of_parseDotted {cs : List Char} {a : Address} (h : parseDotted cs = .ok a) :
    ∀ c ∈ cs, isValueChar c = true := by
  intro c hc
  unfold parseDotted at h
  dsimp only at h
  split at h
  · cases h
  · split at h
    · rename_i hsplit
      obtain ⟨ns, hns, -⟩ := bind_eq_ok_iff.mp h
      have hoctets := exists_mapM_eq_ok_iff.mp ⟨ns, hns⟩
      rcases Text.eq_or_mem_splitAt '.' hc with rfl | ⟨o, ho, hc⟩
      · decide
      · rw [hsplit] at ho
        obtain ⟨n, hn⟩ := hoctets o ho
        have hdigit := isDigit_of_parseOctet (mapError_eq_ok_iff.mp hn) c hc
        simp only [isValueChar, hdigit, Bool.true_or]
    · cases h

theorem isValueChar_of_parseMask {cs : List Char} {l : PrefixLength} (h : parseMask cs = .ok l) :
    ∀ c ∈ cs, isValueChar c = true := by
  unfold parseMask at h
  split at h
  · rename_i hlength
    unfold prefixLength? at hlength
    split at hlength
    · rename_i hdigits
      intro c hc
      simp only [isValueChar, List.all_eq_true.mp hdigits.2.1 c hc, Bool.true_or]
    · cases hlength
  · split at h
    · rename_i hmask
      obtain ⟨a, ha, -⟩ := Option.bind_eq_some_iff.mp hmask
      exact isValueChar_of_parseDotted (eq_ok_of_toOption ha)
    · cases h

/-- An address with a mask is written in digits, points and a slash. -/
theorem isValueChar_of_parseMasked {s : String} {p : Address × PrefixLength}
    (h : parseMasked s = .ok p) : ∀ c ∈ s.toList, isValueChar c = true := by
  intro c hc
  rcases Text.eq_or_mem_splitAt '/' hc with rfl | ⟨part, hpart, hc⟩
  · decide
  · unfold parseMasked at h
    split at h
    · rename_i a hsplit
      obtain ⟨address, ha, -⟩ := bind_eq_ok_iff.mp h
      rw [hsplit, List.mem_singleton] at hpart
      exact isValueChar_of_parseDotted ha c (hpart ▸ hc)
    · rename_i a m hsplit
      obtain ⟨address, ha, h⟩ := bind_eq_ok_iff.mp h
      obtain ⟨length, hm, -⟩ := bind_eq_ok_iff.mp h
      rw [hsplit] at hpart
      rcases List.mem_cons.mp hpart with rfl | hpart
      · exact isValueChar_of_parseDotted ha c hc
      · rw [List.mem_singleton] at hpart
        exact isValueChar_of_parseMask hm c (hpart ▸ hc)
    · cases h

end IPv4

namespace Value

open IPv4 (Address InterfaceAddress Network)

variable {s : String}

theorem braceless_of_valueChars (h : ∀ c ∈ s.toList, isValueChar c = true) : Braceless s :=
  braceless_of_forall h (by decide) (by decide)

theorem braceless_of_interfaceAddress {a : InterfaceAddress} (h : interfaceAddress s = .ok a) :
    Braceless s := by
  unfold interfaceAddress at h
  split at h
  · obtain ⟨p, hp, -⟩ := bind_eq_ok_iff.mp (mapError_eq_ok_iff.mp h)
    exact braceless_of_valueChars (IPv4.isValueChar_of_parseMasked hp)
  · cases h

theorem braceless_of_network {n : Network} (h : network s = .ok n) : Braceless s := by
  unfold network at h
  split at h
  · obtain ⟨p, hp, -⟩ := bind_eq_ok_iff.mp (mapError_eq_ok_iff.mp h)
    exact braceless_of_valueChars (IPv4.isValueChar_of_parseMasked hp)
  · cases h

theorem braceless_of_gateway {a : Address} (h : gateway s = .ok a) : Braceless s := by
  have hparse : Address.parse s = .ok a := mapError_eq_ok_iff.mp h
  unfold Address.parse at hparse
  split at hparse
  · cases hparse
  · exact braceless_of_valueChars (IPv4.isValueChar_of_parseDotted hparse)

theorem braceless_of_distance {d : Distance} (h : distance s = .ok d) : Braceless s := by
  unfold distance at h
  split at h
  · cases h
  · rename_i n hn
    exact braceless_of_forall (Text.isNumberChar_of_integer? hn) (by decide) (by decide)

end Value

end RouterConsole
