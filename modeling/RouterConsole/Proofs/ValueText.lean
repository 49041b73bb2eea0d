import RouterConsole.Proofs.Text.ReadBack
import RouterConsole.Value

/-!
# Printed values are read back

The texts of addresses, networks and distances are words without braces, and reading one gives the
value that was printed.
-/
namespace RouterConsole

open IPv4 (Address InterfaceAddress Network PrefixLength)
open Text (IsWord)

theorem eq_ok_of_toOption {ε α : Type} {x : Except ε α} {a : α} (h : x.toOption = some a) :
    x = .ok a := by
  cases x with
  | error e => cases h
  | ok b => exact congrArg Except.ok (Option.some.inj h)

/-- What a computation fails with, if it fails. -/
def failure? {ε α : Type} : Except ε α → Option ε
  | .ok _ => none
  | .error e => some e

theorem eq_error_of_failure? {ε α : Type} {x : Except ε α} {e : ε} (h : failure? x = some e) :
    x = .error e := by
  cases x with
  | ok a => cases h
  | error e' => exact congrArg Except.error (Option.some.inj h)

theorem failure?_eq_none_iff {ε α : Type} {x : Except ε α} :
    failure? x = none ↔ ∃ a, x = .ok a := by
  cases x with
  | error e => exact ⟨nofun, fun ⟨_, h⟩ => nomatch h⟩
  | ok a => exact ⟨fun _ => ⟨a, rfl⟩, fun _ => rfl⟩

theorem bind_eq_ok_iff {ε α β : Type} {x : Except ε α} {f : α → Except ε β} {b : β} :
    x >>= f = .ok b ↔ ∃ a, x = .ok a ∧ f a = .ok b := by
  cases x with
  | error e => exact ⟨nofun, fun ⟨_, h, _⟩ => nomatch h⟩
  | ok a => exact ⟨fun h => ⟨a, rfl, h⟩, fun ⟨_, ha, h⟩ => Except.ok.inj ha ▸ h⟩

theorem map_eq_ok_iff {ε α β : Type} {x : Except ε α} {f : α → β} {b : β} :
    x.map f = .ok b ↔ ∃ a, x = .ok a ∧ f a = b := by
  cases x with
  | error e => exact ⟨nofun, fun ⟨_, h, _⟩ => nomatch h⟩
  | ok a =>
    exact ⟨fun h => ⟨a, rfl, Except.ok.inj h⟩, fun ⟨_, ha, h⟩ => Except.ok.inj ha ▸ congrArg _ h⟩

theorem mapError_eq_ok_iff {ε ε' α : Type} {x : Except ε α} {f : ε → ε'} {a : α} :
    x.mapError f = .ok a ↔ x = .ok a := by
  cases x with
  | error e => exact ⟨nofun, nofun⟩
  | ok b => exact ⟨fun h => congrArg _ (Except.ok.inj h), fun h => congrArg _ (Except.ok.inj h)⟩

theorem exists_mapM_eq_ok_iff {α β ε : Type} {f : α → Except ε β} {l : List α} :
    (∃ bs, l.mapM f = .ok bs) ↔ ∀ a ∈ l, ∃ b, f a = .ok b := by
  induction l with
  | nil => exact ⟨fun _ => nofun, fun _ => ⟨[], rfl⟩⟩
  | cons a l ih =>
    rw [List.forall_mem_cons, ← ih]
    simp only [List.mapM_cons, bind_eq_ok_iff]
    constructor
    · rintro ⟨_, b, hb, bs, hbs, -⟩
      exact ⟨⟨b, hb⟩, bs, hbs⟩
    · rintro ⟨⟨b, hb⟩, bs, hbs⟩
      exact ⟨_, b, hb, bs, hbs, rfl⟩

/-- A word that no brace stands in, as configuration text needs it. -/
structure PlainWord (s : String) : Prop where
  word : IsWord s.toList
  no_open : '\x7b' ∉ s.toList
  no_close : '\x7d' ∉ s.toList

instance (s : String) : Decidable (PlainWord s) :=
  decidable_of_iff (IsWord s.toList ∧ '\x7b' ∉ s.toList ∧ '\x7d' ∉ s.toList)
    ⟨fun h => ⟨h.1, h.2.1, h.2.2⟩, fun h => ⟨h.word, h.no_open, h.no_close⟩⟩

theorem plainWord_singleton {w : String} (h : PlainWord w) : ∀ v ∈ [w], PlainWord v := by
  intro v hv
  rw [List.mem_singleton.mp hv]
  exact h

theorem plainWord_pair {w v : String} (hw : PlainWord w) (hv : PlainWord v) :
    ∀ u ∈ [w, v], PlainWord u :=
  List.forall_mem_cons.mpr ⟨hw, plainWord_singleton hv⟩

/-- The characters of printed values. -/
def isValueChar (c : Char) : Bool := c.isDigit || c == '.' || c == '/'

theorem isBlank_of_isValueChar {c : Char} (h : isValueChar c = true) : Text.isBlank c = false := by
  simp only [isValueChar, Char.isDigit, Bool.or_eq_true, Bool.and_eq_true, decide_eq_true_eq,
    beq_iff_eq] at h
  rcases h with (⟨hl, hu⟩ | rfl) | rfl
  · have hl' : 48 ≤ c.toNat := hl
    have hu' : c.toNat ≤ 57 := hu
    simp only [Text.isBlank, Bool.or_eq_false_iff, Bool.and_eq_false_iff, decide_eq_false_iff_not,
      beq_eq_false_iff_ne]
    omega
  · decide
  · decide

theorem plainWord_of_valueChars {s : String} (hne : s.toList ≠ [])
    (h : ∀ c ∈ s.toList, isValueChar c = true) : PlainWord s where
  word := ⟨hne, fun c hc => isBlank_of_isValueChar (h c hc)⟩
  no_open hc := absurd (h _ hc) (by decide)
  no_close hc := absurd (h _ hc) (by decide)

namespace IPv4

theorem toList_toString (n : Nat) : (toString n).toList = Nat.toDigits 10 n := Nat.toList_repr

theorem isDigit_of_mem_toString {n : Nat} {c : Char} (h : c ∈ (toString n).toList) :
    c.isDigit = true := by
  rw [toList_toString] at h
  exact Nat.isDigit_of_mem_toDigits (by omega) (by omega) h

theorem not_mem_toString {n : Nat} {c : Char} (h : c.isDigit = false) :
    c ∉ (toString n).toList := by
  intro hc
  rw [isDigit_of_mem_toString hc] at h
  cases h

theorem toString_ne_nil (n : Nat) : (toString n).toList ≠ [] := by
  rw [toList_toString]
  exact Nat.toDigits_ne_nil

theorem parseOctet_toString {n : Nat} (h : n < 256) : parseOctet (toString n).toList = .ok n := by
  have hall : ∀ o : Fin 256, (parseOctet (Nat.toDigits 10 o.val)).toOption = some o.val := by
    decide +kernel
  rw [toList_toString]
  exact eq_ok_of_toOption (hall ⟨n, h⟩)

theorem prefixLength?_toString (l : PrefixLength) :
    prefixLength? (toString l.val).toList = some l := by
  have hall : ∀ l : Fin 33, prefixLength? (Nat.toDigits 10 l.val) = some l := by decide +kernel
  rw [toList_toString]
  exact hall l

theorem parseMask_toString (l : PrefixLength) : parseMask (toString l.val).toList = .ok l := by
  rw [parseMask, prefixLength?_toString]

namespace Address

theorem octet_lt {a : Address} {o : Nat} (h : o ∈ a.octets) : o < 256 := by
  have hlt : a.toNat < 2 ^ 32 := a.lt_count
  simp only [octets, List.mem_cons, List.not_mem_nil, or_false] at h
  omega

theorem toList_text (a : Address) :
    a.text.toList = ['.'].intercalate (a.octets.map fun o => (toString o).toList) := by
  rw [text, String.toList_intercalate, List.map_map]
  rfl

theorem mem_text {a : Address} {c : Char} (h : c ∈ a.text.toList) :
    c.isDigit = true ∨ c = '.' := by
  simp only [toList_text, octets, List.map_cons, List.map_nil, List.intercalate_cons_cons,
    List.intercalate_singleton, List.mem_append, List.mem_singleton] at h
  rcases h with (h | h) | (h | h) | (h | h) | h
  all_goals first
    | exact .inr h
    | exact .inl (isDigit_of_mem_toString h)

theorem text_ne_nil (a : Address) : a.text.toList ≠ [] := by
  simp only [toList_text, octets, List.map_cons, List.map_nil, List.intercalate_cons_cons]
  simp

theorem slash_not_mem_text (a : Address) : '/' ∉ a.text.toList := by
  intro h
  rcases mem_text h with h | h
  · exact absurd h (by decide)
  · exact absurd h (by decide)

theorem plainWord_text (a : Address) : PlainWord a.text := by
  refine plainWord_of_valueChars a.text_ne_nil fun c hc => ?_
  rcases mem_text hc with h | rfl
  · simp only [isValueChar, h, Bool.true_or]
  · decide

/-- The octets make up the address. -/
theorem ofNat_octets (a : Address) :
    ofNat (a.octets.foldl (fun n o => 256 * n + o) 0) = a := by
  obtain ⟨n, hn⟩ := a
  have hlt : n < 4294967296 := hn
  simp only [ofNat, octets, List.foldl_cons, List.foldl_nil, addressCount, mk.injEq]
  omega

end Address

theorem parseDotted_text (a : Address) : parseDotted a.text.toList = .ok a := by
  have hsplit : Text.splitAt '.' a.text.toList = a.octets.map fun o => (toString o).toList := by
    rw [Address.toList_text, Text.splitAt_intercalate (by simp [Address.octets])]
    intro p hp
    obtain ⟨o, -, rfl⟩ := List.mem_map.mp hp
    exact not_mem_toString (by decide)
  have hoctet : ∀ o ∈ a.octets, parseOctet (toString o).toList = .ok o := fun o ho =>
    parseOctet_toString (Address.octet_lt ho)
  have hwhole := a.ofNat_octets
  rw [parseDotted, if_neg a.text_ne_nil, hsplit]
  simp only [Address.octets, List.mem_cons, List.not_mem_nil, or_false, forall_eq_or_imp,
    forall_eq] at hoctet hwhole
  obtain ⟨h₁, h₂, h₃, h₄⟩ := hoctet
  simp only [Address.octets, List.map_cons, List.map_nil, List.mapM_cons, List.mapM_nil, h₁, h₂, h₃,
    h₄]
  exact congrArg Except.ok hwhole

theorem Address.parse_text (a : Address) : Address.parse a.text = .ok a := by
  rw [Address.parse, if_neg a.slash_not_mem_text, parseDotted_text]

theorem Address.eq_of_text_eq {a b : Address} (h : a.text = b.text) : a = b :=
  Except.ok.inj (a.parse_text.symm.trans ((congrArg Address.parse h).trans b.parse_text))

theorem parseMasked_text (a : Address) (l : PrefixLength) :
    parseMasked (a.text ++ "/" ++ toString l.val) = .ok (a, l) := by
  have hsplit : Text.splitAt '/' (a.text ++ "/" ++ toString l.val).toList =
      [a.text.toList, (toString l.val).toList] := by
    have hslash : "/".toList = ['/'] := rfl
    rw [String.toList_append, String.toList_append, hslash, List.append_assoc,
      List.singleton_append, Text.splitAt_part a.slash_not_mem_text,
      Text.splitAt_of_not_mem (not_mem_toString (by decide))]
  rw [parseMasked, hsplit]
  simp only [parseDotted_text, parseMask_toString]
  rfl

theorem InterfaceAddress.parse_text (i : InterfaceAddress) :
    InterfaceAddress.parse i.text = .ok i := by
  rw [InterfaceAddress.parse, InterfaceAddress.text, parseMasked_text]
  rfl

theorem Network.parse_text (n : Network) : Network.parse n.text = .ok n := by
  rw [Network.parse, Network.text, parseMasked_text]
  exact congrArg Except.ok n.containing_base

theorem hasMask_masked (a : Address) (l : PrefixLength) :
    Value.hasMask (a.text ++ "/" ++ toString l.val) = true := by
  simp [Value.hasMask]

theorem plainWord_masked (a : Address) (l : PrefixLength) :
    PlainWord (a.text ++ "/" ++ toString l.val) := by
  refine plainWord_of_valueChars ?_ fun c hc => ?_
  · simp [a.text_ne_nil]
  · rw [String.toList_append, String.toList_append] at hc
    rcases List.mem_append.mp hc with hc | hc
    · rcases List.mem_append.mp hc with hc | hc
      · rcases Address.mem_text hc with h | rfl
        · simp only [isValueChar, h, Bool.true_or]
        · decide
      · have hs : c = '/' := List.mem_singleton.mp hc
        rw [hs]
        decide
    · simp only [isValueChar, isDigit_of_mem_toString hc, Bool.true_or]

theorem InterfaceAddress.plainWord_text (i : InterfaceAddress) : PlainWord i.text :=
  plainWord_masked i.address i.length

theorem Network.plainWord_text (n : Network) : PlainWord n.text := plainWord_masked n.base n.length

end IPv4

theorem Distance.ofInt?_eq_some_iff {n : Int} {d : Distance} :
    ofInt? n = some d ↔ n = d.toNat := by
  obtain ⟨m, h₁, h₂⟩ := d
  unfold ofInt?
  split
  · simp only [Option.some.injEq, mk.injEq]
    omega
  · simp only [reduceCtorEq, false_iff]
    omega

namespace Value

theorem dropWhile_of_digits {cs : List Char} (h : ∀ c ∈ cs, c.isDigit = true) :
    cs.dropWhile Text.isNumberSpace = cs := by
  cases cs with
  | nil => rfl
  | cons c cs =>
    have hc : isValueChar c = true := by
      simp only [isValueChar, h c List.mem_cons_self, Bool.true_or]
    have hb := isBlank_of_isValueChar hc
    have hs : Text.isNumberSpace c = false := by
      simp only [Text.isBlank, Text.isNumberSpace, Bool.or_eq_false_iff, Bool.and_eq_false_iff,
        decide_eq_false_iff_not, beq_eq_false_iff_ne] at hb ⊢
      omega
    exact List.dropWhile_cons_of_neg (by simp [hs])

/-- Digits alone are a number without sign. -/
theorem integer?_of_digits {s : String} (h : ∀ c ∈ s.toList, c.isDigit = true) :
    Text.integer? s = (Text.natural? s.toList).map Int.ofNat := by
  have hrev : ∀ c ∈ s.toList.reverse, c.isDigit = true := fun c hc => h c (List.mem_reverse.mp hc)
  rw [Text.integer?, dropWhile_of_digits h, dropWhile_of_digits hrev, List.reverse_reverse]
  split
  · rename_i cs hcs
    exact absurd (h '-' (hcs ▸ List.mem_cons_self)) (by decide)
  · rename_i cs hcs
    exact absurd (h '+' (hcs ▸ List.mem_cons_self)) (by decide)
  · rfl

theorem interfaceAddress_text (a : InterfaceAddress) : interfaceAddress a.text = .ok a := by
  have hm : hasMask a.text = true := IPv4.hasMask_masked a.address a.length
  rw [interfaceAddress, if_pos hm, a.parse_text]
  rfl

theorem network_text (n : Network) : network n.text = .ok n := by
  have hm : hasMask n.text = true := IPv4.hasMask_masked n.base n.length
  rw [network, if_pos hm, n.parse_text]
  rfl

theorem gateway_text (a : Address) : gateway a.text = .ok a := by
  rw [gateway, a.parse_text]
  rfl

/-- A distance is read from the texts of the integers that are in its range, and is the integer. -/
theorem distance_eq_ok_iff {s : String} {d : Distance} :
    distance s = .ok d ↔ Text.integer? s = some (d.toNat : Int) := by
  unfold distance
  cases Text.integer? s with
  | none => simp
  | some n =>
    rw [Option.some.injEq, ← Distance.ofInt?_eq_some_iff]
    dsimp only
    cases Distance.ofInt? n <;> simp

theorem distance_toString (d : Distance) : distance (toString d.toNat) = .ok d := by
  have hall : ∀ n : Fin 256, Text.natural? (Nat.toDigits 10 n.val) = some n.val := by
    decide +kernel
  have hn : Text.natural? (Nat.toDigits 10 d.toNat) = some d.toNat :=
    hall ⟨d.toNat, Nat.lt_succ_of_le d.le_255⟩
  have hd := integer?_of_digits (s := toString d.toNat) fun c hc => IPv4.isDigit_of_mem_toString hc
  rw [IPv4.toList_toString, hn] at hd
  exact distance_eq_ok_iff.mpr hd

end Value

theorem Distance.plainWord_toString (d : Distance) : PlainWord (toString d.toNat) := by
  refine plainWord_of_valueChars (IPv4.toString_ne_nil _) fun c hc => ?_
  simp only [isValueChar, IPv4.isDigit_of_mem_toString hc, Bool.true_or]

theorem checkDestination_text (n : Network) : checkDestination (some n.text) = .ok n := by
  rw [checkDestination, n.parse_text]
  rfl

theorem checkGateway_text (target : RouteTarget) :
    checkGateway (target.gateway?.map (·.text)) = .ok target.gateway? := by
  cases target with
  | nextHop g =>
    show checkGateway (some g.text) = .ok (some g)
    rw [checkGateway, g.parse_text]
    rfl
  | interface name => rfl

/-- The check of a distance has the bounds of its reader, and says which of them is not kept. -/
theorem checkDistance_eq (n : Int) : checkDistance n =
    match Distance.ofInt? n with
    | some distance => .ok distance
    | none => .error (if n < 1 then .below 1 else .above 255) := by
  unfold checkDistance Distance.ofInt?
  split
  · rename_i problem h
    unfold checkRange at h
    split at h
    · rename_i hlow
      obtain rfl := Except.error.inj h
      rw [dif_neg (by omega), if_pos hlow]
    · rename_i hlow
      split at h
      · obtain rfl := Except.error.inj h
        rw [dif_neg (by omega), if_neg hlow]
      · cases h
  · rename_i m h
    obtain ⟨hlow, hhigh, rfl⟩ := checkRange_eq_ok_iff.mp h
    rw [dif_pos ⟨hlow, hhigh⟩]

/-- A route as it is written down. -/
def StaticRoute.description (r : StaticRoute) : RouteDescription where
  destination := some r.destination.text
  nextHop := r.target.gateway?.map (·.text)
  interface := r.target.interface?
  distance := r.distance.toNat
  disabled := r.disabled

/-- Every route passes the checks on its own description. -/
theorem StaticRoute.build_description (r : StaticRoute) : r.description.build = .ok r := by
  obtain ⟨destination, target, distance, disabled⟩ := r
  have hdistance : checkDistance (distance.toNat : Int) = .ok distance := by
    rw [checkDistance_eq, Distance.ofInt?_eq_some_iff.mpr rfl]
  simp only [description, RouteDescription.build, checkDestination_text, checkGateway_text,
    hdistance]
  cases target <;> rfl

end RouterConsole
