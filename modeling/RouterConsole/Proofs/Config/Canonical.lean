import RouterConsole.Proofs.Config.Generate

/-!
# The canonical path of a directive

Many paths ask for the same: an address may come with a netmask, a destination with host bits, and
options may be repeated or come in another order. The configuration path of a directive is one of
them. It is read back as the directive, so that two directives have the same path exactly when
they ask for the same.
-/
namespace RouterConsole.Config

open Text (IsWord words)

/-- The directive with another token to stand for it in messages. -/
def Directive.withToken (t : Token) : Directive → Directive
  | .address i a _ => .address i a t
  | .disable i _ => .disable i t
  | .route r d _ => .route r d t

namespace Directive

@[simp] theorem configPath_withToken (d : Directive) (t : Token) :
    (d.withToken t).configPath = d.configPath := by
  cases d <;> rfl

@[simp] theorem withToken_withToken (d : Directive) (t u : Token) :
    (d.withToken t).withToken u = d.withToken u := by
  cases d <;> rfl

@[simp] theorem withToken_token (d : Directive) : d.withToken d.token = d := by
  cases d <;> rfl

end Directive

variable {names : List String}

/-- The words of its own path say what a directive asks for. -/
theorem interpret_pathWords {d : Directive} (hd : d.Fits names) {path : List Token}
    (h : values path = d.pathWords) : ∃ t, interpret names path = .ok (some (d.withToken t)) := by
  cases d with
  | address i a _ => exact interpret_addressWords h hd
  | disable i _ => exact interpret_disableWords h hd
  | route r disable _ =>
    obtain ⟨hr, hn⟩ := hd
    have hwords : values path = r.pathWords ++ if disable then ["disable"] else [] := by
      rw [h, Directive.pathWords]
      cases disable <;> simp [disableRouteWords]
    have hsame : { r with disabled := false } = r := by rw [← hr]
    obtain ⟨t, ht⟩ := interpret_routeWords hwords hn
    rw [hsame] at ht
    exact ⟨t, ht⟩

/-- A directive about interfaces whose names are words has a path that is split into its words
again. -/
theorem words_configPath {d : Directive} (hd : d.Fits (wordNames names)) :
    words d.configPath = d.pathWords := by
  refine Text.words_unwords fun w hw => ?_
  have hplain : ∀ v, PlainWord v → IsWord v.toList := fun _ hv => hv.word
  have hname : ∀ n ∈ wordNames names, IsWord n.toList := fun _ hn => (mem_wordNames.mp hn).2
  cases d with
  | address i a _ => exact forall_addressWords hplain (hname i hd) a w hw
  | disable i _ => exact forall_disableWords hplain (hname i hd) w hw
  | route r disable _ =>
    have htarget : ∀ n, r.target = .interface n → IsWord n.toList := fun n ht =>
      hname n (hd.2 n ht)
    rw [Directive.pathWords] at hw
    split at hw
    · exact forall_disableRouteWords hplain htarget w hw
    · exact forall_pathWords hplain htarget w hw

/-- What paths of words ask for is about interfaces whose names are words. -/
theorem fits_of_interpret {path : List Token} (hw : Worded path) {d : Directive}
    (h : interpret names path = .ok (some d)) : d.Fits (wordNames names) :=
  (interpret_eq_ok_iff.mp h).fits.mono fun _ => mem_wordNames_of_namesOn hw

/-- The configuration path of a directive is read back as the directive. -/
theorem interpret_configPath {d : Directive} (hd : d.Fits (wordNames names)) {path : List Token}
    (h : values path = words d.configPath) :
    ∃ t, interpret names path = .ok (some (d.withToken t)) :=
  interpret_pathWords (hd.mono fun _ hn => (mem_wordNames.mp hn).1) (h.trans (words_configPath hd))

/-- Directives with the same configuration path ask for the same. -/
theorem eq_withToken_of_configPath {d d' : Directive} (hd : d.Fits (wordNames names))
    (hd' : d'.Fits (wordNames names)) (h : d'.configPath = d.configPath) :
    d' = d.withToken d'.token := by
  -- One and the same path is read back as either of them.
  let path : List Token := (words d.configPath).map fun word => ⟨word, 1, 1⟩
  have hpath : values path = words d.configPath := by
    simp only [path, values, List.map_map, Function.comp_def, List.map_id']
  obtain ⟨t, ht⟩ := interpret_configPath hd hpath
  obtain ⟨t', ht'⟩ := interpret_configPath hd' (hpath.trans (congrArg words h.symm))
  have hsame : d.withToken t = d'.withToken t' :=
    Option.some.inj (Except.ok.inj (ht.symm.trans ht'))
  calc d' = (d'.withToken t').withToken d'.token := by simp
    _ = (d.withToken t).withToken d'.token := by rw [hsame]
    _ = d.withToken d'.token := d.withToken_withToken t d'.token

/-- The configuration path of a directive that was read from words is read back as the directive,
and it is the same for two of them exactly when they differ at most in their tokens. -/
theorem configPath_canonical {path : List Token} (hw : Worded path) {d : Directive}
    (h : interpret names path = .ok (some d)) :
    (∀ path', values path' = words d.configPath →
      ∃ t, interpret names path' = .ok (some (d.withToken t))) ∧
    ∀ path' d', Worded path' → interpret names path' = .ok (some d') →
      (d'.configPath = d.configPath ↔ d' = d.withToken d'.token) := by
  have hd := fits_of_interpret hw h
  refine ⟨fun path' => interpret_configPath hd, fun path' d' hw' h' => ⟨fun he => ?_, fun he => ?_⟩⟩
  · exact eq_withToken_of_configPath hd (fits_of_interpret hw' h') he
  · rw [he, Directive.configPath_withToken]

/-- A netmask, host bits, signs and repeated options all go into the same path. -/
theorem configPath_canonical_of_netmask :
    let tokens : List String → List Token := List.map fun word => ⟨word, 1, 1⟩
    let path := tokens ["protocols", "static", "route", "10.7.7.7/255.0.0.0", "interface", "eth0",
      "distance", "9", "disable", "distance", "+0_1", "disable"]
    let plain := tokens ["protocols", "static", "route", "10.0.0.0/8", "interface", "eth0",
      "disable"]
    let route : StaticRoute :=
      { destination := ⟨.ofNat 0x0A000000, 8, by decide⟩, target := .interface "eth0" }
    let d : Directive := .route route true ⟨"10.7.7.7/255.0.0.0", 1, 1⟩
    let d' : Directive := .route route true ⟨"10.0.0.0/8", 1, 1⟩
    Worded path ∧ interpret ["eth0"] path = .ok (some d) ∧
      Worded plain ∧ interpret ["eth0"] plain = .ok (some d') ∧
      d'.configPath = d.configPath ∧ words d.configPath = values plain := by
  intro tokens path plain route d d'
  have hpath : Worded path := by
    unfold Worded
    decide
  have hplain : Worded plain := by
    unfold Worded
    decide
  have hd : interpret ["eth0"] path = .ok (some d) := eq_ok_of_toOption (by decide +kernel)
  have hd' : interpret ["eth0"] plain = .ok (some d') := eq_ok_of_toOption (by decide +kernel)
  have hsame := ((configPath_canonical hpath hd).2 plain d' hplain hd').mpr rfl
  exact ⟨hpath, hd, hplain, hd', hsame, by decide +kernel⟩

end RouterConsole.Config
