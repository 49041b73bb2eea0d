import RouterConsole.Proofs.Config.Grammar
import RouterConsole.Proofs.ValueText

/-!
# Every path of the grammar is read

Read from left to right, a path of the grammar gives what it asks for, whatever stands for its
values (`PathAsks.interpret_eq`), so that the paths that are read are those of the grammar and no
others. Among them are the paths that are written for settings and routes.
-/
namespace RouterConsole.Config

open IPv4 (InterfaceAddress)

variable {names : List String}

theorem values_eq_cons_iff {ts : List Token} {v : String} {vs : List String} :
    values ts = v :: vs ↔ ∃ t us, ts = t :: us ∧ t.value = v ∧ values us = vs :=
  List.map_eq_cons_iff

theorem values_eq_nil_iff {ts : List Token} : values ts = [] ↔ ts = [] := List.map_eq_nil_iff

section Reading

variable {last t : Token} {ts : List Token}

theorem expectWord_of_value {keyword : String} (h : t.value = keyword) :
    expectWord keyword last (t :: ts) = .ok (t, ts) := by
  simp only [expectWord, nextToken]
  exact if_pos h

theorem expectInterface_of_value (h : t.value ∈ names) :
    expectInterface names last (t :: ts) = .ok (t, ts) := by
  simp only [expectInterface, nextToken]
  exact if_pos h

theorem readValue_of_ok {α : Type} {read : String → Except ValueFault α} {a : α}
    (h : read t.value = .ok a) (fault : String → ValueFault → Fault) :
    readValue read fault t = .ok a := by
  rw [readValue, h]
  rfl

theorem interfaceAddress_dhcp (a : InterfaceAddress) : Value.interfaceAddress "dhcp" ≠ .ok a :=
  nofun

theorem routeTarget_of_words {target : List Token} {through : RouteTarget}
    (h : TargetWords names (values target) through) (last : Token) (ts : List Token) :
    routeTarget names last (target ++ ts) = .ok (through, ts) := by
  generalize hv : values target = ws at h
  cases h with
  | nextHop hg =>
    simp only [values_eq_cons_iff, values_eq_nil_iff] at hv
    obtain ⟨kind, _, rfl, hkind, value, _, rfl, rfl, rfl⟩ := hv
    have hread := readValue_of_ok hg .badGateway
    simp only [routeTarget, nextToken, List.cons_append, List.nil_append, bind, Except.bind,
      if_pos hkind, hread]
    rfl
  | interface hn =>
    simp only [values_eq_cons_iff, values_eq_nil_iff] at hv
    obtain ⟨kind, _, rfl, hkind, name, _, rfl, rfl, rfl⟩ := hv
    have hhop : kind.value ≠ "next-hop" := by
      rw [hkind]
      decide
    simp only [routeTarget, nextToken, List.cons_append, List.nil_append, bind, Except.bind,
      if_neg hhop, if_pos hkind, expectInterface_of_value hn]
    rfl

theorem routeOptions_of_words {options : List RouteOption} (h : OptionWords (values ts) options)
    (distance : Distance) (disable : Bool) :
    routeOptions distance disable ts =
      .ok (lastDistance distance options, disable || decide (RouteOption.disable ∈ options)) := by
  -- The induction is on the options; what was read before them is left open.
  generalize hv : values ts = ws at h
  induction h generalizing ts distance disable with
  | nil =>
    obtain rfl := values_eq_nil_iff.mp hv
    simp [routeOptions]
  | disable _ ih =>
    obtain ⟨t, ts, rfl, ht, hv⟩ := values_eq_cons_iff.mp hv
    have hdistance : t.value ≠ "distance" := by
      rw [ht]
      decide
    rw [routeOptions_of_ne hdistance, if_pos ht, ih distance true hv]
    simp
  | distance hd _ ih =>
    simp only [values_eq_cons_iff] at hv
    obtain ⟨t, _, rfl, ht, v, ts, rfl, rfl, hv⟩ := hv
    rw [routeOptions_of_eq ht, readValue_of_ok hd]
    refine (ih _ disable hv).trans ?_
    simp

/-- A path of the grammar is read as what it asks for. -/
theorem PathAsks.interpret_eq {path : List Token} {d? : Option Directive}
    (h : PathAsks names path d?) : interpret names path = .ok d? := by
  -- The words fix how many tokens a path starts with, and where they differ from the keywords that
  -- are tried first.
  cases h with
  | dhcp hv hn =>
    simp only [values_eq_cons_iff, values_eq_nil_iff] at hv
    obtain ⟨t₁, _, rfl, h₁, t₂, _, rfl, h₂, t₃, _, rfl, rfl, t₄, _, rfl, h₄, t₅, _, rfl, h₅, rfl⟩ :=
      hv
    rw [interpret, if_pos h₁, interfacePath, expectWord_of_value h₂]
    simp only [bind, Except.bind, expectInterface_of_value hn, nextToken, if_pos h₄, expectEnd,
      if_pos h₅]
    rfl
  | @address _ value _ a hv hn ha =>
    simp only [values_eq_cons_iff, values_eq_nil_iff] at hv
    obtain ⟨t₁, _, rfl, h₁, t₂, _, rfl, h₂, t₃, _, rfl, rfl, t₄, _, rfl, h₄, rfl⟩ := hv
    have hdhcp : value.value ≠ "dhcp" := fun h => interfaceAddress_dhcp a (h ▸ ha)
    simp only [List.cons_append, List.nil_append]
    rw [interpret, if_pos h₁, interfacePath, expectWord_of_value h₂]
    simp only [bind, Except.bind, expectInterface_of_value hn, nextToken, if_pos h₄, expectEnd,
      if_neg hdhcp, readValue_of_ok ha]
    rfl
  | @disable _ option _ hv hn ho =>
    simp only [values_eq_cons_iff, values_eq_nil_iff] at hv
    obtain ⟨t₁, _, rfl, h₁, t₂, _, rfl, h₂, t₃, _, rfl, rfl, rfl⟩ := hv
    have haddress : option.value ≠ "address" := by
      rw [ho]
      decide
    simp only [List.cons_append, List.nil_append]
    rw [interpret, if_pos h₁, interfacePath, expectWord_of_value h₂]
    simp only [bind, Except.bind, expectInterface_of_value hn, nextToken, if_neg haddress,
      if_pos ho, expectEnd]
    rfl
  | route hv hd ht ho =>
    simp only [values_eq_cons_iff, values_eq_nil_iff] at hv
    obtain ⟨t₁, _, rfl, h₁, t₂, _, rfl, h₂, t₃, _, rfl, h₃, rfl⟩ := hv
    have hinterfaces : t₁.value ≠ "interfaces" := by
      rw [h₁]
      decide
    simp only [List.cons_append, List.nil_append]
    rw [interpret, if_neg hinterfaces, if_pos h₁, routePath, expectWord_of_value h₂]
    simp only [bind, Except.bind, expectWord_of_value h₃, nextToken, readValue_of_ok hd,
      routeTarget_of_words ht, routeOptions_of_words ho, Bool.false_or]
    rfl

end Reading

/-- What is read is what the grammar lists. -/
theorem interpret_eq_ok_iff {path : List Token} {d? : Option Directive} :
    interpret names path = .ok d? ↔ PathAsks names path d? := by
  refine ⟨fun h => ?_, PathAsks.interpret_eq⟩
  cases path with
  | nil => cases h
  | cons t ts => exact (interpret_ends (List.cons_ne_nil t ts)).of_ok h

section Written

variable {path : List Token}

/-- The path of an address is read back. -/
theorem interpret_addressWords {i : String} {a : InterfaceAddress}
    (h : values path = addressWords i a) (hi : i ∈ names) :
    ∃ t, interpret names path = .ok (some (.address i a t)) := by
  have hwords : values path = ["interfaces", "ethernet", i, "address"] ++ [a.text] := h
  obtain ⟨setting, last, rfl, hsetting, hlast⟩ := List.map_eq_append_iff.mp hwords
  obtain ⟨t, rfl, ht⟩ := List.map_eq_singleton_iff.mp hlast
  have hread : Value.interfaceAddress t.value = .ok a := ht ▸ Value.interfaceAddress_text a
  exact ⟨t, (PathAsks.address hsetting hi hread).interpret_eq⟩

/-- The path of a disabled interface is read back. -/
theorem interpret_disableWords {i : String} (h : values path = disableWords i) (hi : i ∈ names) :
    ∃ t, interpret names path = .ok (some (.disable i t)) := by
  have hwords : values path = ["interfaces", "ethernet", i] ++ ["disable"] := h
  obtain ⟨setting, last, rfl, hsetting, hlast⟩ := List.map_eq_append_iff.mp hwords
  obtain ⟨t, rfl, ht⟩ := List.map_eq_singleton_iff.mp hlast
  exact ⟨t, (PathAsks.disable hsetting hi ht).interpret_eq⟩

theorem targetWords_of_words {target : RouteTarget}
    (hn : ∀ name, target = .interface name → name ∈ names) :
    TargetWords names target.words target := by
  cases target with
  | nextHop g => exact .nextHop (Value.gateway_text g)
  | interface name => exact .interface (hn name rfl)

/-- The options that are written behind a target. -/
def writtenOptions (d : Distance) (disable : Bool) : List RouteOption :=
  (if d = .default then [] else [.distance d]) ++ if disable then [.disable] else []

theorem optionWords_of_written (d : Distance) (disable : Bool) :
    OptionWords ((if d = .default then [] else ["distance", toString d.toNat]) ++
      if disable then ["disable"] else []) (writtenOptions d disable) := by
  have hdisable : OptionWords (if disable then ["disable"] else [])
      (if disable then [.disable] else []) := by
    cases disable with
    | false => exact .nil
    | true => exact .disable .nil
  rw [writtenOptions]
  split
  · exact hdisable
  · exact .distance (Value.distance_toString d) hdisable

theorem lastDistance_written (d : Distance) (disable : Bool) :
    lastDistance .default (writtenOptions d disable) = d := by
  by_cases hd : d = .default <;> cases disable <;>
    simp [writtenOptions, hd]

theorem disable_mem_written {d : Distance} {disable : Bool} :
    RouteOption.disable ∈ writtenOptions d disable ↔ disable = true := by
  by_cases hd : d = .default <;> cases disable <;> simp [writtenOptions, hd]

/-- The path of a route is read back, with its being switched off if that is written behind. -/
theorem interpret_routeWords {r : StaticRoute} {disable : Bool}
    (h : values path = r.pathWords ++ if disable then ["disable"] else [])
    (hn : ∀ name, r.target = .interface name → name ∈ names) :
    ∃ t, interpret names path =
      .ok (some (.route { r with disabled := false } disable t)) := by
  have hwords : values path = ["protocols", "static", "route"] ++ r.destination.text ::
      (r.target.words ++ ((if r.distance = .default then [] else
        ["distance", toString r.distance.toNat]) ++ if disable then ["disable"] else [])) := by
    rw [h, StaticRoute.pathWords]
    simp only [List.cons_append, List.nil_append, List.append_assoc]
  obtain ⟨setting, rest, rfl, hsetting, hrest⟩ := List.map_eq_append_iff.mp hwords
  obtain ⟨t, rest, rfl, ht, hrest⟩ := values_eq_cons_iff.mp hrest
  obtain ⟨target, tail, rfl, htarget, htail⟩ := List.map_eq_append_iff.mp hrest
  have hdestination : Value.network t.value = .ok r.destination :=
    ht ▸ Value.network_text r.destination
  have hto : TargetWords names (values target) r.target := by
    rw [values, htarget]
    exact targetWords_of_words hn
  have hoptions : OptionWords (values tail) (writtenOptions r.distance disable) := by
    rw [values, htail]
    exact optionWords_of_written r.distance disable
  refine ⟨t, ?_⟩
  rw [(PathAsks.route hsetting hdestination hto hoptions).interpret_eq, lastDistance_written]
  simp only [disable_mem_written, Bool.decide_eq_true]

end Written

/-- A path that asks for nothing sets an address that is to come from the network. -/
theorem pathAsks_none_iff {path : List Token} :
    PathAsks names path none ↔
      ∃ n ∈ names, values path = ["interfaces", "ethernet", n, "address", "dhcp"] := by
  constructor
  · intro h
    cases h with
    | dhcp hv hn => exact ⟨_, hn, hv⟩
  · rintro ⟨n, hn, hv⟩
    exact .dhcp hv hn

/-- The paths of the grammar are accepted, with what they ask for, and no others: any other path is
refused at one of its tokens. Only an address from the network leaves nothing to do. -/
theorem interpret_accepts_grammar (names : List String) {path : List Token} (h : path ≠ []) :
    (∀ d?, interpret names path = .ok d? ↔ PathAsks names path d?) ∧
      (interpret names path = .ok none ↔
        ∃ n ∈ names, values path = ["interfaces", "ethernet", n, "address", "dhcp"]) ∧
      ((∀ d?, ¬PathAsks names path d?) →
        ∃ (fault : Fault) (token : Token),
          fault ≠ .emptyPath ∧ interpret names path = .error (fault.at token)) := by
  refine ⟨fun d? => interpret_eq_ok_iff, interpret_eq_ok_iff.trans pathAsks_none_iff, fun hno => ?_⟩
  cases hi : interpret names path with
  | ok d? => exact absurd (interpret_eq_ok_iff.mp hi) (hno d?)
  | error e =>
    obtain ⟨fault, token, rfl, hfault⟩ := (interpret_ends h).of_error hi
    exact ⟨fault, token, hfault.ne_emptyPath, rfl⟩

/-- A route by an interface that is called like an option: the last distance counts, and the
route is disabled by its option, not by the name. -/
theorem interpret_accepts_grammar_of_keyword_name :
    let tokens : List String → List Token := List.map fun word => ⟨word, 1, 1⟩
    let value : Token := ⟨"10.0.0.0/8", 1, 1⟩
    let path := tokens ["protocols", "static", "route"] ++ value ::
      (tokens ["interface", "disable"] ++ tokens ["distance", "5", "disable", "distance", "7"])
    let destination : IPv4.Network := ⟨.ofNat 0x0A000000, 8, by decide⟩
    path ≠ [] ∧ interpret ["disable"] path =
      .ok (some (.route ⟨destination, .interface "disable", ⟨7, by decide, by decide⟩, false⟩ true
        value)) := by
  intro tokens value path destination
  have hpath : path ≠ [] := List.cons_ne_nil _ _
  have htext : destination.text = value.value := by decide
  have hdestination : Value.network value.value = .ok destination :=
    htext ▸ Value.network_text destination
  have hfive : Value.distance "5" = .ok ⟨5, by decide, by decide⟩ := eq_ok_of_toOption (by decide)
  have hseven : Value.distance "7" = .ok ⟨7, by decide, by decide⟩ :=
    eq_ok_of_toOption (by decide)
  have hto : TargetWords ["disable"] (values (tokens ["interface", "disable"]))
      (.interface "disable") := .interface (by decide)
  have hoptions : OptionWords (values (tokens ["distance", "5", "disable", "distance", "7"]))
      [.distance ⟨5, by decide, by decide⟩, .disable, .distance ⟨7, by decide, by decide⟩] :=
    .distance hfive (.disable (.distance hseven .nil))
  have hsetting : values (tokens ["protocols", "static", "route"]) =
      ["protocols", "static", "route"] := rfl
  have hasks := PathAsks.route hsetting hdestination hto hoptions
  exact ⟨hpath, ((interpret_accepts_grammar ["disable"] hpath).1 _).mpr hasks⟩

end RouterConsole.Config
