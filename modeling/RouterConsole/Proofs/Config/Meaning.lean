import RouterConsole.Proofs.Config.Notation
import RouterConsole.Proofs.Config.Replay
import RouterConsole.Proofs.ValueText

/-!
# What directives describe

The configuration that some directives describe, in closed form: of several addresses for one
interface the last counts, of several disablings one is enough, and a route that is listed again
keeps its place. Replaying the directives on a wiped configuration gives just that, whatever is
applied and whatever is skipped on the way.
-/
namespace RouterConsole

open IPv4 (InterfaceAddress Network)

namespace Config

/-- The address that a directive gives to the named interface. -/
def Directive.addressFor? (name : String) : Directive → Option InterfaceAddress
  | .address i a _ => if i = name then some a else none
  | .disable _ _ | .route _ _ _ => none

/-- Whether a directive disables the named interface. -/
def Directive.disables (name : String) : Directive → Bool
  | .disable i _ => i == name
  | .address _ _ _ | .route _ _ _ => false

/-- The identity of the route that a directive lists. -/
def Directive.routeKey? : Directive → Option (Network × RouteTarget × Distance)
  | .route r _ _ => some r.key
  | .address _ _ _ | .disable _ _ => none

/-- Whether a directive lists the route with this identity as switched off. -/
def Directive.disablesRoute (key : Network × RouteTarget × Distance) : Directive → Bool
  | .route r d _ => d && r.key == key
  | .address _ _ _ | .disable _ _ => false

/-- The last address that directives give to the named interface. -/
def lastAddress? (ds : List Directive) (name : String) : Option InterfaceAddress :=
  (ds.filterMap (Directive.addressFor? name)).getLast?

/-- An interface as directives configure it. -/
def configured (ds : List Directive) (i : Interface) : Interface :=
  { i with
    address := lastAddress? ds i.name
    status := { i.status with admin := if ds.any (Directive.disables i.name) then .down else .up } }

/-- The routes that directives list, in the order in which they are first listed. -/
def routeKeys (ds : List Directive) : List (Network × RouteTarget × Distance) :=
  (ds.filterMap Directive.routeKey?).eraseDups

/-- The entry of a listed route. -/
def routeEntry (ds : List Directive) (key : Network × RouteTarget × Distance) : StaticRoute :=
  { destination := key.1, target := key.2.1, distance := key.2.2,
    disabled := ds.any (Directive.disablesRoute key) }

/-- What directives describe, for the given interfaces. -/
def described (interfaces : List Interface) (ds : List Directive) : Configuration where
  interfaces := interfaces.map (configured ds)
  routes := ⟨(routeKeys ds).map (routeEntry ds)⟩

theorem updateFirst_eq_map {is : List Interface} (h : (is.map (·.name)).Nodup) (name : String)
    (f : Interface → Interface) :
    Configuration.updateFirst name f is = is.map fun i => if i.name = name then f i else i := by
  induction is with
  | nil => rfl
  | cons i is ih =>
    obtain ⟨hi, his⟩ := List.nodup_cons.mp h
    by_cases hn : i.name = name
    · have hothers : is.map (fun j => if j.name = name then f j else j) = is := by
        refine (List.map_congr_left (g := id) fun j hj => if_neg fun hj' => ?_).trans is.map_id
        exact hi (List.mem_map.mpr ⟨j, hj, hj'.trans hn.symm⟩)
      rw [Configuration.updateFirst_cons_self hn, List.map_cons, if_pos hn, hothers]
    · rw [Configuration.updateFirst_cons_of_ne hn, List.map_cons, if_neg hn, ih his]

theorem disableFirst_eq_map {es : List StaticRoute} (h : (es.map (·.key)).Nodup)
    (r : StaticRoute) :
    RoutingTable.disableFirst r es =
      es.map fun e => if e.key = r.key then { e with disabled := true } else e := by
  induction es with
  | nil => rfl
  | cons e es ih =>
    obtain ⟨he, hes⟩ := List.nodup_cons.mp h
    rw [RoutingTable.disableFirst, List.map_cons]
    by_cases hk : e.key = r.key
    · have hothers : es.map (fun x => if x.key = r.key then { x with disabled := true } else x) =
          es := by
        refine (List.map_congr_left (g := id) fun x hx => if_neg fun hxk => ?_).trans es.map_id
        exact he (List.mem_map.mpr ⟨x, hx, hxk.trans hk.symm⟩)
      rw [if_pos (StaticRoute.same_iff.mpr hk), if_pos hk, hothers]
    · rw [if_neg (mt StaticRoute.same_iff.mp hk), if_neg hk, ih hes]

theorem disableFirst_of_disabled {es : List StaticRoute} {r entry : StaticRoute}
    (hf : es.find? (·.same r) = some entry) (hd : entry.disabled = true) :
    RoutingTable.disableFirst r es = es := by
  induction es with
  | nil => rfl
  | cons e es ih =>
    rw [RoutingTable.disableFirst]
    cases hs : e.same r with
    | true =>
      simp only [List.find?_cons, hs, Option.some.injEq] at hf
      obtain ⟨destination, target, distance, disabled⟩ := e
      obtain rfl : disabled = true := (congrArg StaticRoute.disabled hf).trans hd
      rfl
    | false =>
      simp only [List.find?_cons, hs] at hf
      rw [if_neg Bool.false_ne_true, ih hf]

theorem disable_of_disabled {t : RoutingTable} {r entry : StaticRoute}
    (hf : t.find? r = some entry) (hd : entry.disabled = true) : t.disable r = t :=
  congrArg RoutingTable.mk (disableFirst_of_disabled hf hd)

/-! ## One directive more -/

theorem lastAddress?_concat (ds : List Directive) (d : Directive) (name : String) :
    lastAddress? (ds ++ [d]) name = (d.addressFor? name).or (lastAddress? ds name) := by
  rw [lastAddress?, List.filterMap_append, List.getLast?_append]
  cases h : d.addressFor? name with
  | none => simp only [List.filterMap_cons, h, List.filterMap_nil]; rfl
  | some a => simp only [List.filterMap_cons, h, List.filterMap_nil]; rfl

theorem any_concat (p : Directive → Bool) (ds : List Directive) (d : Directive) :
    (ds ++ [d]).any p = (ds.any p || p d) := by
  rw [List.any_append, List.any_cons, List.any_nil, Bool.or_false]

theorem configured_address (ds : List Directive) (name : String) (a : InterfaceAddress)
    (t : Token) (i : Interface) :
    configured (ds ++ [.address name a t]) i =
      if i.name = name then (configured ds i).withAddress (some a) else configured ds i := by
  rw [configured, lastAddress?_concat, any_concat]
  by_cases hn : i.name = name
  · have ha : (Directive.address name a t).addressFor? i.name = some a := if_pos hn.symm
    rw [if_pos hn, ha, Directive.disables, Bool.or_false]
    rfl
  · have ha : (Directive.address name a t).addressFor? i.name = none := if_neg (Ne.symm hn)
    rw [if_neg hn, ha, Directive.disables, Bool.or_false]
    rfl

theorem configured_disable (ds : List Directive) (name : String) (t : Token) (i : Interface) :
    configured (ds ++ [.disable name t]) i =
      if i.name = name then (configured ds i).withAdmin .down else configured ds i := by
  rw [configured, lastAddress?_concat, any_concat, Directive.disables]
  by_cases hn : i.name = name
  · have hd : (name == i.name) = true := beq_iff_eq.mpr hn.symm
    rw [if_pos hn, hd, Bool.or_true]
    rfl
  · have hd : (name == i.name) = false := beq_false_of_ne (Ne.symm hn)
    rw [if_neg hn, hd, Bool.or_false]
    rfl

theorem configured_route (ds : List Directive) (r : StaticRoute) (d : Bool) (t : Token)
    (i : Interface) : configured (ds ++ [.route r d t]) i = configured ds i := by
  rw [configured, lastAddress?_concat, any_concat, Directive.disables, Bool.or_false]
  rfl

theorem routeKeys_concat_none (ds : List Directive) {d : Directive} (h : d.routeKey? = none) :
    routeKeys (ds ++ [d]) = routeKeys ds := by
  rw [routeKeys, List.filterMap_append, List.filterMap_cons_none h, List.filterMap_nil,
    List.append_nil, routeKeys]

theorem routeEntry_concat (ds : List Directive) (d : Directive)
    (key : Network × RouteTarget × Distance) :
    routeEntry (ds ++ [d]) key =
      if d.disablesRoute key then { routeEntry ds key with disabled := true }
      else routeEntry ds key := by
  rw [routeEntry, any_concat]
  cases d.disablesRoute key with
  | true => rw [Bool.or_true]; rfl
  | false => rw [Bool.or_false]; rfl

/-- A directive about an interface leaves the routes. -/
theorem routes_concat (interfaces : List Interface) (ds : List Directive) {d : Directive}
    (h : d.routeKey? = none) (hd : ∀ key, d.disablesRoute key = false) :
    (described interfaces (ds ++ [d])).routes = (described interfaces ds).routes := by
  have he : routeEntry (ds ++ [d]) = routeEntry ds := by
    funext key
    rw [routeEntry_concat, hd, if_neg Bool.false_ne_true]
  simp only [described, routeKeys_concat_none ds h, he]

theorem update_described {interfaces : List Interface} (hn : (interfaces.map (·.name)).Nodup)
    (ds : List Directive) (name : String) (f : Interface → Interface) :
    (described interfaces ds).update name f =
      ⟨interfaces.map fun i =>
        if i.name = name then f (configured ds i) else configured ds i,
        (described interfaces ds).routes⟩ := by
  have hnames : ((interfaces.map (configured ds)).map (·.name)).Nodup := by
    rw [List.map_map]
    exact hn
  have hupdate := updateFirst_eq_map hnames name f
  rw [List.map_map] at hupdate
  rw [Configuration.update]
  exact congrArg (Configuration.mk · _) hupdate

theorem described_address {interfaces : List Interface} (hn : (interfaces.map (·.name)).Nodup)
    (ds : List Directive) (name : String) (a : InterfaceAddress) (t : Token) :
    described interfaces (ds ++ [.address name a t]) =
      (described interfaces ds).update name (·.withAddress (some a)) := by
  have hroutes := routes_concat interfaces ds (d := .address name a t) rfl fun _ => rfl
  have his := List.map_congr_left (l := interfaces) fun i _ => configured_address ds name a t i
  rw [update_described hn, ← hroutes, ← his]
  rfl

theorem described_disable {interfaces : List Interface} (hn : (interfaces.map (·.name)).Nodup)
    (ds : List Directive) (name : String) (t : Token) :
    described interfaces (ds ++ [.disable name t]) =
      (described interfaces ds).update name (·.withAdmin .down) := by
  have hroutes := routes_concat interfaces ds (d := .disable name t) rfl fun _ => rfl
  have his := List.map_congr_left (l := interfaces) fun i _ => configured_disable ds name t i
  rw [update_described hn, ← hroutes, ← his]
  rfl

theorem nodup_eraseDups {α : Type} [BEq α] [LawfulBEq α] : ∀ l : List α, l.eraseDups.Nodup
  | [] => List.nodup_nil
  | a :: l => by
    rw [List.eraseDups_cons, List.nodup_cons, List.mem_eraseDups, List.mem_filter]
    exact ⟨fun h => by simp at h, nodup_eraseDups _⟩
termination_by l => l.length
decreasing_by exact Nat.lt_succ_of_le (List.length_filter_le _ _)

theorem keys_described (interfaces : List Interface) (ds : List Directive) :
    (described interfaces ds).routes.keys = routeKeys ds := by
  rw [RoutingTable.keys, described, List.map_map]
  exact (routeKeys ds).map_id

theorem routeKeys_concat (ds : List Directive) (r : StaticRoute) (d : Bool) (t : Token) :
    routeKeys (ds ++ [.route r d t]) =
      if r.key ∈ routeKeys ds then routeKeys ds else routeKeys ds ++ [r.key] := by
  have hkey : (Directive.route r d t).routeKey? = some r.key := rfl
  have hmem : r.key ∈ routeKeys ds ↔ r.key ∈ ds.filterMap Directive.routeKey? :=
    List.mem_eraseDups
  rw [routeKeys, List.filterMap_append, List.filterMap_cons_some hkey, List.filterMap_nil,
    List.eraseDups_append, List.removeAll, List.filter_cons, List.filter_nil]
  by_cases hr : r.key ∈ ds.filterMap Directive.routeKey?
  · rw [if_pos (hmem.mpr hr), List.elem_eq_true_of_mem hr, Bool.not_true,
      if_neg Bool.false_ne_true, List.eraseDups_nil, List.append_nil, routeKeys]
  · have hc : List.elem r.key (ds.filterMap Directive.routeKey?) = false := by
      simpa using hr
    rw [if_neg (mt hmem.mp hr), hc, Bool.not_false, if_pos rfl]
    rfl

/-- A route that is not listed is not switched off. -/
theorem routeEntry_of_not_mem {ds : List Directive} {r : StaticRoute} (hr : r.disabled = false)
    (h : r.key ∉ routeKeys ds) : routeEntry ds r.key = r := by
  have hd : ds.any (Directive.disablesRoute r.key) = false := by
    rw [List.any_eq_false]
    intro d hd hdis
    refine h (List.mem_eraseDups.mpr (List.mem_filterMap.mpr ⟨d, hd, ?_⟩))
    cases d with
    | address | disable => cases hdis
    | route r' _ _ =>
      have hk : (r'.key == r.key) = true := (Bool.and_eq_true_iff.mp hdis).2
      exact congrArg some (beq_iff_eq.mp hk)
  obtain ⟨destination, target, distance, disabled⟩ := r
  obtain rfl : disabled = false := hr
  rw [routeEntry, hd]
  rfl

/-- A table in which a route is listed. -/
def listed (t : RoutingTable) (r : StaticRoute) : RoutingTable :=
  if t.contains r then t else t.add r

theorem listed_described (interfaces : List Interface) (ds : List Directive) {r : StaticRoute}
    (hr : r.disabled = false) (d : Bool) (t : Token) :
    listed (described interfaces ds).routes r =
      ⟨(routeKeys (ds ++ [.route r d t])).map (routeEntry ds)⟩ := by
  have hc : (described interfaces ds).routes.contains r = true ↔ r.key ∈ routeKeys ds := by
    rw [RoutingTable.contains_iff, keys_described]
  rw [listed, routeKeys_concat]
  by_cases hk : r.key ∈ routeKeys ds
  · rw [if_pos (hc.mpr hk), if_pos hk, described]
  · rw [if_neg (mt hc.mp hk), if_neg hk, List.map_append, List.map_cons, List.map_nil,
      routeEntry_of_not_mem hr hk, described, RoutingTable.add]

/-- A directive about a route lists it, and switches it off if it says so. -/
theorem described_route (interfaces : List Interface) (ds : List Directive) {r : StaticRoute}
    (hr : r.disabled = false) (d : Bool) (t : Token) :
    described interfaces (ds ++ [.route r d t]) =
      { described interfaces ds with
        routes := if d then (listed (described interfaces ds).routes r).disable r
          else listed (described interfaces ds).routes r } := by
  have his : interfaces.map (configured (ds ++ [.route r d t])) = interfaces.map (configured ds) :=
    List.map_congr_left fun i _ => configured_route ds r d t i
  have hnodup : (((routeKeys (ds ++ [.route r d t])).map (routeEntry ds)).map (·.key)).Nodup := by
    rw [List.map_map]
    exact (routeKeys (ds ++ [.route r d t])).map_id.symm ▸ nodup_eraseDups _
  rw [listed_described interfaces ds hr d t, described, his]
  apply congrArg (Configuration.mk _)
  cases d with
  | false =>
    have he : routeEntry (ds ++ [.route r false t]) = routeEntry ds := by
      funext key
      rw [routeEntry_concat]
      rfl
    rw [he]
    rfl
  | true =>
    rw [if_pos rfl, RoutingTable.disable, disableFirst_eq_map hnodup, List.map_map]
    refine congrArg RoutingTable.mk (List.map_congr_left fun key _ => ?_)
    have hd : (Directive.route r true t).disablesRoute key = true ↔
        (routeEntry ds key).key = r.key := by
      rw [Directive.disablesRoute, Bool.true_and, beq_iff_eq, eq_comm]
      rfl
    rw [routeEntry_concat]
    simp only [hd, Function.comp]

/-! ## Replaying what is described -/

section Replaying

variable {c c' : Configuration} {path : String} {applied skipped : List String}

/-- Whether an address is set or skipped as a duplicate, it is there afterwards. -/
theorem replays_setAddress {name : String} {a : InterfaceAddress}
    (h : Replays c [(path, .setAddress name a)] applied skipped c') :
    c' = c.update name (·.withAddress (some a)) := by
  cases h with
  | applied he hrest =>
    cases hrest
    cases he
    rfl
  | skipped he hd hrest =>
    cases hrest
    cases he with
    | noInterface => cases hd
    | unusable => cases hd
    | addressThere hs =>
      obtain ⟨i, hi, ha, -⟩ := Configuration.settings_eq_some_iff.mp hs
      have hset : i.address = some a := ha
      refine (Configuration.update_of_fixed hi ?_).symm
      rw [Interface.withAddress, ← hset]

theorem replays_disableInterface {name : String}
    (h : Replays c [(path, .disableInterface name)] applied skipped c') :
    c' = c.update name (·.withAdmin .down) := by
  cases h with
  | applied he hrest =>
    cases hrest
    cases he
    rfl
  | skipped he hd hrest =>
    cases hrest
    cases he with
    | noInterface => cases hd
    | alreadyDisabled hs =>
      obtain ⟨i, hi, -, ha⟩ := Configuration.settings_eq_some_iff.mp hs
      have hdown : i.status.admin = .down := ha
      refine (Configuration.update_of_fixed hi ?_).symm
      rw [Interface.withAdmin, InterfaceStatus.withAdmin, ← hdown]

theorem replays_addRoute {r : StaticRoute}
    (h : Replays c [(path, .addRoute r)] applied skipped c') :
    c' = { c with routes := listed c.routes r } := by
  cases h with
  | applied he hrest =>
    cases hrest
    cases he with
    | addRoute _ hk => rw [listed, if_neg (mt RoutingTable.contains_iff.mp hk)]
  | skipped he hd hrest =>
    cases hrest
    cases he with
    | noInterface hi => cases hi
    | noTarget => cases hd
    | routeThere _ hk => rw [listed, if_pos (RoutingTable.contains_iff.mpr hk)]

theorem replays_disableRoute {r : StaticRoute}
    (h : Replays c [(path, .disableRoute r)] applied skipped c') :
    c' = { c with routes := c.routes.disable r } := by
  cases h with
  | applied he hrest =>
    cases hrest
    cases he
    rfl
  | skipped he hd hrest =>
    cases hrest
    cases he with
    | noInterface hi => cases hi
    | noSuchRoute => cases hd
    | routeDisabled hf hdis => rw [disable_of_disabled hf hdis]

end Replaying

variable {interfaces : List Interface} {names : List String} {applied skipped : List String}
  {c' : Configuration}

/-- Replaying one directive more describes it as well. -/
theorem replays_described_step (hn : (interfaces.map (·.name)).Nodup) (ds : List Directive)
    {d : Directive} (hd : d.Fits names)
    (h : Replays (described interfaces ds) d.edits applied skipped c') :
    c' = described interfaces (ds ++ [d]) := by
  cases d with
  | address name a t => rw [replays_setAddress h, described_address hn]
  | disable name t => rw [replays_disableInterface h, described_disable hn]
  | route r dis t =>
    rw [described_route interfaces ds hd.1]
    cases dis with
    | false => exact replays_addRoute h
    | true =>
      -- The one directive has two edits, with the listed route between them.
      have hsplit : Directive.edits (.route r true t) =
          [(r.configPath, .addRoute r)] ++
            [(Text.unwords (disableRouteWords r), .disableRoute r)] := rfl
      rw [hsplit] at h
      obtain ⟨c₁, _, _, _, _, h₁, h₂, -, -⟩ := h.of_append
      rw [replays_disableRoute h₂, replays_addRoute h₁]
      rfl

theorem replays_described (hn : (interfaces.map (·.name)).Nodup) {ds : List Directive}
    (hd : ∀ d ∈ ds, d.Fits names) (before : List Directive)
    (h : Replays (described interfaces before) (edits ds) applied skipped c') :
    c' = described interfaces (before ++ ds) := by
  -- The directives already replayed grow at the end, as `described` reads them.
  induction ds generalizing before applied skipped with
  | nil =>
    cases h
    rw [List.append_nil]
  | cons d ds ih =>
    rw [edits, List.flatMap_cons] at h
    obtain ⟨c₁, _, _, _, _, h₁, h₂, -, -⟩ := h.of_append
    have hstep := replays_described_step hn before (hd d List.mem_cons_self) h₁
    have hrest := ih (fun e he => hd e (List.mem_cons_of_mem d he)) (before ++ [d]) (hstep ▸ h₂)
    rwa [List.append_assoc, List.singleton_append] at hrest

/-- Routers with the same interface names make the same of a text: the same report, the same
settings under each name and the same routes. -/
theorem load_of_same_names {r r' : Router} (hs : r.Synced) (hd : r.dirty = false)
    (hs' : r'.Synced) (hd' : r'.dirty = false)
    (hn : ∀ n, n ∈ r.committed.names ↔ n ∈ r'.committed.names) {text : String}
    {format? : Option Format} {ds : List Directive}
    (hp : parse (format?.getD (detectFormat text)) r.committed.names text = .ok ds)
    (h : Replays r.committed.cleared (edits ds) applied skipped c') :
    (load r' text format?).result = (load r text format?).result ∧
      Configuration.Alike (load r' text format?).router.committed
        (load r text format?).router.committed := by
  obtain ⟨d', h', halike⟩ := h.alike (Configuration.alike_cleared hn)
  obtain ⟨hrouter, hresult⟩ := load_of_replays hs hd hp h
  obtain ⟨hrouter', hresult'⟩ := load_of_replays hs' hd' (parse_congr hn _ text ▸ hp) h'
  rw [hresult, hresult', hrouter, hrouter']
  exact ⟨rfl, halike.symm⟩

/-- What a successful load of a text into a reachable router without waiting edits means. The
router keeps its mode and has no waiting edits; its committed and its staged configuration are the
one that the directives of the text describe, whatever the configuration was before. Every other
such router with interfaces of the same names gets the same report from the text, and with it the
same addresses and administrative states under every name and the same routes. -/
theorem load_installs_described {name : String} {is : List Interface} {r : Router}
    (h : ReachableFrom (.new name is) r) (hn : r.committed.names.Nodup) (hd : r.dirty = false)
    {text : String} {format? : Option Format} {report : Report}
    (hr : (load r text format?).result = .ok report) :
    (∃ ds, parse (format?.getD (detectFormat text)) r.committed.names text = .ok ds ∧
        (load r text format?).router.mode = r.mode ∧
        (load r text format?).router.dirty = false ∧
        (load r text format?).router.staged = (load r text format?).router.committed ∧
        (load r text format?).router.committed.interfaces =
          r.committed.interfaces.map (fun i =>
            { i with
              address := (ds.filterMap (Directive.addressFor? i.name)).getLast?
              status := { i.status with
                admin := if ds.any (Directive.disables i.name) then .down else .up } }) ∧
        (load r text format?).router.committed.routes.entries =
          (ds.filterMap Directive.routeKey?).eraseDups.map fun key =>
            { destination := key.1, target := key.2.1, distance := key.2.2,
              disabled := ds.any (Directive.disablesRoute key) }) ∧
      ∀ (name' : String) (is' : List Interface) (r' : Router),
        ReachableFrom (.new name' is') r' → r'.dirty = false →
        (∀ n, n ∈ r'.committed.names ↔ n ∈ r.committed.names) →
        (load r' text format?).result = .ok report ∧
          (∀ n, (load r' text format?).router.committed.settings n =
            (load r text format?).router.committed.settings n) ∧
          (load r' text format?).router.committed.routes =
            (load r text format?).router.committed.routes := by
  have hs := h.synced
  rcases load_outcome hs hd text format? with
    ⟨ds, applied, skipped, c, hp, hrep⟩ | ⟨e, -, he, -⟩
  · have hfits := (parse_ends _ r.committed.names text).of_ok hp
    have hc : c = described r.committed.interfaces ds := replays_described hn hfits [] hrep
    obtain ⟨hrouter, -⟩ := load_of_replays hs hd hp hrep
    refine ⟨⟨ds, hp, ?_⟩, fun name' is' r' h' hd' hn' => ?_⟩
    · rw [hrouter, hc]
      exact ⟨rfl, hd, rfl, rfl, rfl⟩
    · obtain ⟨hresult', halike⟩ :=
        load_of_same_names hs hd h'.synced hd' (fun n => (hn' n).symm) hp hrep
      exact ⟨hresult'.trans hr, halike.settings, halike.routes⟩
  · rw [he] at hr
    cases hr

/-- A text that disables an interface twice, loaded into a router whose interface is disabled
already: the first line is applied, the second is skipped, and a new router reports the same. -/
theorem load_installs_described_twice :
    let start := Router.new "edge" [.fresh "eth0" ⟨.replicate 6 2⟩]
    let r := start.run [.setMode .configuration, .edit (.disableInterface "eth0"), .commit]
    let text := "set interfaces ethernet eth0 disable\nset interfaces ethernet eth0 disable"
    let report : Report :=
      ⟨.commands, ["interfaces ethernet eth0 disable"], ["interfaces ethernet eth0 disable"]⟩
    (load r text).result = .ok report ∧ (load r text).router.mode = .configuration ∧
      (load r text).router.staged = (load r text).router.committed ∧
      (load start text).result = .ok report := by
  intro start r text report
  have hr : ReachableFrom start r := ReachableFrom.refl.run _
  have hreport : (load r text).result.toOption = some report := by decide +kernel
  have hresult := eq_ok_of_toOption hreport
  obtain ⟨⟨ds, -, hmode, -, hstaged, -⟩, hsame⟩ :=
    load_installs_described hr (by decide) (by decide) hresult
  obtain ⟨hresult', -⟩ := hsame "edge" [.fresh "eth0" ⟨.replicate 6 2⟩] start .refl rfl
    fun n => Iff.rfl
  exact ⟨hresult, hmode.trans (by decide), hstaged, hresult'⟩

end Config

end RouterConsole
