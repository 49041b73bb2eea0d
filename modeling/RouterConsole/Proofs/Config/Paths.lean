import RouterConsole.Config.Grammar
import RouterConsole.Proofs.Config.Tokens

/-!
# The paths of the grammar

Which paths a router accepts, and what each asks for, listed by their words. Nothing here reads
from left to right: the words of a path are given as a whole, and so are those of the target and of
the options of a route. Keywords have no special standing as values, so that an interface may be
called `disable`.
-/
namespace RouterConsole.Config

/-- One option of a route. -/
inductive RouteOption where
  | disable
  | distance (value : Distance)
  deriving DecidableEq

def RouteOption.distance? : RouteOption → Option Distance
  | .disable => none
  | .distance d => some d

/-- The last distance among some options, or the given one if they state none. -/
def lastDistance (otherwise : Distance) (options : List RouteOption) : Distance :=
  (options.filterMap RouteOption.distance?).getLast?.getD otherwise

/-- The words of some options, in order. -/
inductive OptionWords : List String → List RouteOption → Prop
  | nil : OptionWords [] []
  | disable {ws : List String} {options : List RouteOption} : OptionWords ws options →
      OptionWords ("disable" :: ws) (.disable :: options)
  | distance {v : String} {d : Distance} {ws : List String} {options : List RouteOption} :
      Value.distance v = .ok d → OptionWords ws options →
      OptionWords ("distance" :: v :: ws) (.distance d :: options)

/-- The words of a target, on a router with the given interfaces. -/
inductive TargetWords (names : List String) : List String → RouteTarget → Prop
  | nextHop {v : String} {g : IPv4.Address} : Value.gateway v = .ok g →
      TargetWords names ["next-hop", v] (.nextHop g)
  | interface {n : String} : n ∈ names → TargetWords names ["interface", n] (.interface n)

/-- The paths that a router with the given interfaces accepts, and what they ask for. An address
that is to come from the network asks for nothing. The token of a directive is the address, the word
that disables, or the destination. -/
inductive PathAsks (names : List String) : List Token → Option Directive → Prop
  | dhcp {path : List Token} {n : String} :
      values path = ["interfaces", "ethernet", n, "address", "dhcp"] → n ∈ names →
      PathAsks names path none
  | address {setting : List Token} {value : Token} {n : String} {a : IPv4.InterfaceAddress} :
      values setting = ["interfaces", "ethernet", n, "address"] → n ∈ names →
      Value.interfaceAddress value.value = .ok a →
      PathAsks names (setting ++ [value]) (some (.address n a value))
  | disable {setting : List Token} {option : Token} {n : String} :
      values setting = ["interfaces", "ethernet", n] → n ∈ names → option.value = "disable" →
      PathAsks names (setting ++ [option]) (some (.disable n option))
  | route {setting target tail : List Token} {value : Token} {destination : IPv4.Network}
      {through : RouteTarget} {options : List RouteOption} :
      values setting = ["protocols", "static", "route"] →
      Value.network value.value = .ok destination → TargetWords names (values target) through →
      OptionWords (values tail) options →
      PathAsks names (setting ++ value :: (target ++ tail))
        (some (.route
          { destination := destination, target := through,
            distance := lastDistance .default options }
          (decide (RouteOption.disable ∈ options)) value))

/-- How words can be those of some options, by the first of them. -/
theorem optionWords_iff {ws : List String} {options : List RouteOption} :
    OptionWords ws options ↔ ws = [] ∧ options = [] ∨
      (∃ ws' rest, ws = "disable" :: ws' ∧ options = .disable :: rest ∧ OptionWords ws' rest) ∨
      ∃ v d ws' rest, ws = "distance" :: v :: ws' ∧ Value.distance v = .ok d ∧
        options = .distance d :: rest ∧ OptionWords ws' rest := by
  constructor
  · intro h
    cases h with
    | nil => exact .inl ⟨rfl, rfl⟩
    | disable hrest => exact .inr (.inl ⟨_, _, rfl, rfl, hrest⟩)
    | distance hd hrest => exact .inr (.inr ⟨_, _, _, _, rfl, hd, rfl, hrest⟩)
  · rintro (⟨rfl, rfl⟩ | ⟨ws', rest, rfl, rfl, hrest⟩ | ⟨v, d, ws', rest, rfl, hd, rfl, hrest⟩)
    · exact .nil
    · exact .disable hrest
    · exact .distance hd hrest

theorem optionWords_nil_iff {options : List RouteOption} :
    OptionWords [] options ↔ options = [] := by
  rw [optionWords_iff]
  simp

theorem optionWords_disable_iff {ws : List String} {options : List RouteOption} :
    OptionWords ("disable" :: ws) options ↔
      ∃ rest, options = .disable :: rest ∧ OptionWords ws rest := by
  rw [optionWords_iff]
  simp

theorem optionWords_distance_iff {v : String} {ws : List String} {options : List RouteOption} :
    OptionWords ("distance" :: v :: ws) options ↔
      ∃ d rest, Value.distance v = .ok d ∧ options = .distance d :: rest ∧ OptionWords ws rest := by
  rw [optionWords_iff]
  constructor
  · rintro (⟨h, -⟩ | ⟨_, _, h, -⟩ | ⟨_, d, _, rest, h, hd, ho, hrest⟩)
    · cases h
    · simp at h
    · obtain ⟨rfl, rfl⟩ := List.cons.inj (List.cons.inj h).2
      exact ⟨d, rest, hd, ho, hrest⟩
  · rintro ⟨d, rest, hd, ho, hrest⟩
    exact .inr (.inr ⟨v, d, ws, rest, rfl, hd, ho, hrest⟩)

theorem targetWords_iff {names ws : List String} {target : RouteTarget} :
    TargetWords names ws target ↔
      (∃ v g, ws = ["next-hop", v] ∧ Value.gateway v = .ok g ∧ target = .nextHop g) ∨
        ∃ n ∈ names, ws = ["interface", n] ∧ target = .interface n := by
  constructor
  · intro h
    cases h with
    | nextHop hg => exact .inl ⟨_, _, rfl, hg, rfl⟩
    | interface hn => exact .inr ⟨_, hn, rfl, rfl⟩
  · rintro (⟨v, g, rfl, hg, rfl⟩ | ⟨n, hn, rfl, rfl⟩)
    · exact .nextHop hg
    · exact .interface hn

theorem TargetWords.length_eq {names ws : List String} {target : RouteTarget}
    (h : TargetWords names ws target) : ws.length = 2 := by
  cases h <;> rfl

/-- What the path of a route asks for, by the words behind its destination. The token of the
directive is the destination. -/
theorem pathAsks_route_iff (names : List String) {path : List Token} {d : String}
    {rest : List String} (h : values path = "protocols" :: "static" :: "route" :: d :: rest) :
    ∃ value : Token, path[3]? = some value ∧ ∀ d?, PathAsks names path d? ↔
      ∃ ws ws' destination through options, rest = ws ++ ws' ∧ Value.network d = .ok destination ∧
        TargetWords names ws through ∧ OptionWords ws' options ∧
        d? = some (.route ⟨destination, through, lastDistance .default options, false⟩
          (decide (RouteOption.disable ∈ options)) value) := by
  have hsplit : values path = ["protocols", "static", "route"] ++ d :: rest := h
  obtain ⟨setting, behind, rfl, hsetting, hbehind⟩ := List.map_eq_append_iff.mp hsplit
  obtain ⟨value, tail, rfl, rfl, htail⟩ := List.map_eq_cons_iff.mp hbehind
  have hthree : setting.length = 3 := by
    have hlength := congrArg List.length hsetting
    rwa [List.length_map] at hlength
  refine ⟨value, ?_, fun d? => ⟨fun hasks => ?_, ?_⟩⟩
  · rw [List.getElem?_append_right (Nat.le_of_eq hthree), hthree]
    rfl
  · generalize hpath : setting ++ value :: tail = path at h hasks
    cases hasks with
    | dhcp hv => simp [hv] at h
    | address hv => simp [hv] at h
    | disable hv => simp [hv] at h
    | @route setting' target options' _ destination through options hv hd ht ho =>
      -- The first three words are the same, so the path is split at the same token.
      have hlength : setting.length = setting'.length := by
        have hsame := congrArg List.length hv
        rw [values, List.length_map] at hsame
        rw [hthree, hsame]
        rfl
      obtain ⟨rfl, hcons⟩ := List.append_inj hpath hlength
      obtain ⟨rfl, rfl⟩ := List.cons.inj hcons
      have hrest : rest = values target ++ values options' := by rw [← htail, ← values_append]; rfl
      exact ⟨_, _, destination, through, options, hrest, hd, ht, ho, rfl⟩
  · rintro ⟨ws, ws', destination, through, options, rfl, hd, ht, ho, rfl⟩
    obtain ⟨target, options', rfl, rfl, rfl⟩ := List.map_eq_append_iff.mp htail
    exact .route hsetting hd ht ho

/-- What the path of an interface asks for, by the words behind its name. The token of the directive
is the last one. -/
theorem pathAsks_interface_iff (names : List String) {path : List Token} {n : String}
    {rest : List String} (h : values path = "interfaces" :: "ethernet" :: n :: rest) :
    ∃ last : Token, ∀ d?, PathAsks names path d? ↔ n ∈ names ∧
      (rest = ["address", "dhcp"] ∧ d? = none ∨
        (∃ v a, rest = ["address", v] ∧ Value.interfaceAddress v = .ok a ∧
          d? = some (.address n a last)) ∨
        rest = ["disable"] ∧ d? = some (.disable n last)) := by
  have hne : path ≠ [] := by
    rintro rfl
    cases h
  obtain ⟨front, last, rfl⟩ : ∃ front last, path = front ++ [last] :=
    ⟨_, _, (List.dropLast_concat_getLast hne).symm⟩
  refine ⟨last, fun d? => ⟨fun hasks => ?_, ?_⟩⟩
  · generalize hpath : front ++ [last] = path at h hasks
    cases hasks with
    | dhcp hv hn =>
      obtain ⟨rfl, rfl⟩ : _ = n ∧ _ = rest := by simpa [hv] using h
      exact ⟨hn, .inl ⟨rfl, rfl⟩⟩
    | @address setting value m a hv hn ha =>
      obtain ⟨rfl, rfl⟩ : m = n ∧ ["address", value.value] = rest := by simpa [hv] using h
      obtain ⟨-, hlast⟩ := List.append_inj' hpath rfl
      obtain rfl := List.singleton_inj.mp hlast
      exact ⟨hn, .inr (.inl ⟨_, a, rfl, ha, rfl⟩)⟩
    | @disable setting option m hv hn ho =>
      obtain ⟨rfl, rfl⟩ : m = n ∧ ["disable"] = rest := by simpa [hv, ho] using h
      obtain ⟨-, hlast⟩ := List.append_inj' hpath rfl
      obtain rfl := List.singleton_inj.mp hlast
      exact ⟨hn, .inr (.inr ⟨rfl, rfl⟩)⟩
    | route hv => simp [hv] at h
  · rw [values_append] at h
    rintro ⟨hn, ⟨rfl, rfl⟩ | ⟨v, a, rfl, ha, rfl⟩ | ⟨rfl, rfl⟩⟩
    · exact .dhcp ((values_append _ _).trans h) hn
    · have hsplit : values front ++ [last.value] =
          ["interfaces", "ethernet", n, "address"] ++ [v] := h
      obtain ⟨hfront, hlast⟩ := List.append_inj' hsplit rfl
      obtain rfl := List.singleton_inj.mp hlast
      exact .address hfront hn ha
    · have hsplit : values front ++ [last.value] =
          ["interfaces", "ethernet", n] ++ ["disable"] := h
      obtain ⟨hfront, hlast⟩ := List.append_inj' hsplit rfl
      exact .disable hfront hn (List.singleton_inj.mp hlast)

@[simp] theorem lastDistance_nil (otherwise : Distance) : lastDistance otherwise [] = otherwise :=
  rfl

@[simp] theorem lastDistance_distance (otherwise d : Distance) (options : List RouteOption) :
    lastDistance otherwise (.distance d :: options) = lastDistance d options := by
  rw [lastDistance, lastDistance, List.filterMap_cons_some (f := RouteOption.distance?) rfl,
    List.getLast?_cons, Option.getD_some]

@[simp] theorem lastDistance_disable (otherwise : Distance) (options : List RouteOption) :
    lastDistance otherwise (.disable :: options) = lastDistance otherwise options := by
  rw [lastDistance, lastDistance, List.filterMap_cons_none (f := RouteOption.distance?) rfl]

end RouterConsole.Config
