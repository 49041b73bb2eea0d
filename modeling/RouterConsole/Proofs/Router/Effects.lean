import RouterConsole.Proofs.Router.Operation
import RouterConsole.Proofs.Router.WellFormed

/-!
# What an edit reads and writes

Each edit has one target: the address of an interface, its administrative state, or the route with
one identity. Besides the names of the interfaces an edit reads its target and nothing else, and it
leaves every other target as it was. It writes in place, except that a new route goes to the end of
the table. Writes in place at different targets commute, with each other and with a new route.
-/
namespace RouterConsole

open IPv4 (InterfaceAddress Network)

/-- What an edit reads and changes. -/
inductive Edit.Target where
  | address (interface : String)
  | admin (interface : String)
  | route (key : Network × RouteTarget × Distance)
  deriving DecidableEq

def Edit.target : Edit → Edit.Target
  | .addRoute route | .removeRoute route | .disableRoute route => .route route.key
  | .setAddress name _ | .deleteAddress name _ => .address name
  | .disableInterface name | .enableInterface name => .admin name

namespace RoutingTable

/-- Changes the first of some entries with this identity, or takes it out. -/
def changeFirst (key : Network × RouteTarget × Distance) (f : StaticRoute → Option StaticRoute) :
    List StaticRoute → List StaticRoute
  | [] => []
  | e :: es => if e.key = key then (f e).toList ++ es else e :: changeFirst key f es

theorem eraseP_eq_changeFirst (r : StaticRoute) (es : List StaticRoute) :
    es.eraseP (·.same r) = changeFirst r.key (fun _ => none) es := by
  induction es with
  | nil => rfl
  | cons e es ih =>
    unfold changeFirst
    by_cases he : e.key = r.key
    · have hs : e.same r = true := StaticRoute.same_iff.mpr he
      rw [if_pos he, List.eraseP_cons, hs]
      rfl
    · have hs : e.same r = false := Bool.eq_false_iff.mpr (mt StaticRoute.same_iff.mp he)
      rw [if_neg he, List.eraseP_cons, hs, ← ih]
      rfl

theorem disableFirst_eq_changeFirst (r : StaticRoute) (es : List StaticRoute) :
    disableFirst r es = changeFirst r.key (fun e => some { e with disabled := true }) es := by
  induction es with
  | nil => rfl
  | cons e es ih =>
    unfold changeFirst disableFirst
    by_cases he : e.key = r.key
    · rw [if_pos he, if_pos (StaticRoute.same_iff.mpr he)]
      rfl
    · rw [if_neg he, if_neg (mt StaticRoute.same_iff.mp he), ih]

variable {key other : Network × RouteTarget × Distance} {f g : StaticRoute → Option StaticRoute}

theorem changeFirst_cons_of_ne {e : StaticRoute} (h : e.key ≠ key) (es : List StaticRoute) :
    changeFirst key f (e :: es) = e :: changeFirst key f es := if_neg h

theorem changeFirst_toList {o : Option StaticRoute} (h : ∀ e, o = some e → e.key ≠ key)
    (es : List StaticRoute) :
    changeFirst key f (o.toList ++ es) = o.toList ++ changeFirst key f es := by
  cases o with
  | none => rfl
  | some e => exact changeFirst_cons_of_ne (h e rfl) es

theorem changeFirst_concat {r : StaticRoute} (h : r.key ≠ key) (es : List StaticRoute) :
    changeFirst key f (es ++ [r]) = changeFirst key f es ++ [r] := by
  induction es with
  | nil => exact changeFirst_cons_of_ne h []
  | cons e es ih =>
    rw [List.cons_append, changeFirst, changeFirst]
    split
    · rw [List.append_assoc]
    · rw [ih, List.cons_append]

/-- Changes that keep the identity, at different identities, commute. -/
theorem changeFirst_comm (hne : key ≠ other) (hf : ∀ e e', f e = some e' → e'.key = e.key)
    (hg : ∀ e e', g e = some e' → e'.key = e.key) (es : List StaticRoute) :
    changeFirst key f (changeFirst other g es) = changeFirst other g (changeFirst key f es) := by
  induction es with
  | nil => rfl
  | cons e es ih =>
    by_cases hkey : e.key = key
    · have hother : e.key ≠ other := hkey ▸ hne
      have hkept : ∀ e', f e = some e' → e'.key ≠ other := fun e' h => hf e e' h ▸ hother
      rw [changeFirst_cons_of_ne hother, changeFirst, if_pos hkey, changeFirst, if_pos hkey,
        changeFirst_toList hkept]
    · by_cases hother : e.key = other
      · have hkept : ∀ e', g e = some e' → e'.key ≠ key := fun e' h => hg e e' h ▸ hkey
        rw [changeFirst_cons_of_ne hkey, changeFirst, if_pos hother, changeFirst, if_pos hother,
          changeFirst_toList hkept]
      · rw [changeFirst_cons_of_ne hother, changeFirst_cons_of_ne hkey,
          changeFirst_cons_of_ne hkey, changeFirst_cons_of_ne hother, ih]

/-- A change is not seen under another identity. -/
theorem find?_changeFirst (hne : key ≠ other) (hf : ∀ e e', f e = some e' → e'.key = e.key)
    (es : List StaticRoute) :
    (changeFirst key f es).find? (·.key == other) = es.find? (·.key == other) := by
  induction es with
  | nil => rfl
  | cons e es ih =>
    unfold changeFirst
    by_cases hkey : e.key = key
    · have hother : (e.key == other) = false := beq_false_of_ne (hkey ▸ hne)
      rw [if_pos hkey, List.find?_append, List.find?_cons, hother]
      cases h : f e with
      | none => rfl
      | some e' =>
        have hother' : (e'.key == other) = false := hf e e' h ▸ hother
        rw [Option.toList_some, List.find?_cons, hother']
        rfl
    · rw [if_neg hkey, List.find?_cons, List.find?_cons, ih]

theorem find?_concat_of_ne {r : StaticRoute} (h : r.key ≠ key) (es : List StaticRoute) :
    (es ++ [r]).find? (·.key == key) = es.find? (·.key == key) := by
  have hr : (r.key == key) = false := beq_false_of_ne h
  rw [List.find?_append, List.find?_cons, hr, List.find?_nil, Option.or_none]

theorem key_mem_iff_find? {t : RoutingTable} {r : StaticRoute} :
    r.key ∈ t.keys ↔ (t.find? r).isSome = true := by
  rw [isSome_find?, contains_iff]

end RoutingTable

namespace Configuration

/-- The address of the first interface with this name. -/
def address? (c : Configuration) (name : String) : Option InterfaceAddress :=
  (c.interface? name).bind (·.address)

theorem address?_of_settings {c : Configuration} {name : String} {a : Option InterfaceAddress}
    {admin : AdminState} (h : c.settings name = some (a, admin)) : c.address? name = a := by
  obtain ⟨i, hi, ha, -⟩ := settings_eq_some_iff.mp h
  rw [address?, hi]
  exact ha

theorem settings_updated_address {c : Configuration} {name : String}
    {a : Option InterfaceAddress} {s : AdminState} (h : c.settings name = some (a, s))
    (a' : Option InterfaceAddress) :
    (c.update name (·.withAddress a')).settings name = some (a', s) := by
  rw [settings_update_address, if_pos rfl, h, Option.map_some]

theorem settings_updated_admin {c : Configuration} {name : String} {a : Option InterfaceAddress}
    {s : AdminState} (h : c.settings name = some (a, s)) (s' : AdminState) :
    (c.update name (·.withAdmin s')).settings name = some (a, s') := by
  rw [settings_update_admin, if_pos rfl, h, Option.map_some]

section UpdateComm

variable {f g : Interface → Interface} (hf : ∀ i, (f i).name = i.name)
  (hg : ∀ i, (g i).name = i.name)

include hf hg

/-- Changes of interfaces commute, if they are changes of different interfaces or commute on
each. -/
theorem updateFirst_comm {name other : String} (h : name = other → ∀ i, f (g i) = g (f i))
    (is : List Interface) :
    updateFirst name f (updateFirst other g is) = updateFirst other g (updateFirst name f is) := by
  induction is with
  | nil => rfl
  | cons i is ih =>
    by_cases hname : i.name = name
    · by_cases hother : i.name = other
      · rw [updateFirst_cons_self hother, updateFirst_cons_self hname,
          updateFirst_cons_self ((hg i).trans hname), updateFirst_cons_self ((hf i).trans hother),
          h (hname.symm.trans hother)]
      · have hfi : (f i).name ≠ other := fun he => hother ((hf i).symm.trans he)
        rw [updateFirst_cons_of_ne hother, updateFirst_cons_self hname,
          updateFirst_cons_self hname, updateFirst_cons_of_ne hfi]
    · by_cases hother : i.name = other
      · have hgi : (g i).name ≠ name := fun he => hname ((hg i).symm.trans he)
        rw [updateFirst_cons_self hother, updateFirst_cons_of_ne hgi,
          updateFirst_cons_of_ne hname, updateFirst_cons_self hother]
      · rw [updateFirst_cons_of_ne hother, updateFirst_cons_of_ne hname,
          updateFirst_cons_of_ne hname, updateFirst_cons_of_ne hother, ih]

theorem update_comm {name other : String} (h : name = other → ∀ i, f (g i) = g (f i))
    (c : Configuration) :
    (c.update other g).update name f = (c.update name f).update other g :=
  congrArg (Configuration.mk · c.routes) (updateFirst_comm hf hg h c.interfaces)

end UpdateComm

/-- The configuration with a route more, at the end of the table. -/
def addRoute (c : Configuration) (route : StaticRoute) : Configuration :=
  { c with routes := c.routes.add route }

end Configuration

/-- What an accepted edit makes of a configuration. -/
def Edit.write (c : Configuration) : Edit → Configuration
  | .addRoute route => c.addRoute route
  | .removeRoute route => { c with routes := ⟨c.routes.entries.eraseP (·.same route)⟩ }
  | .disableRoute route => { c with routes := c.routes.disable route }
  | .setAddress name a => c.update name (·.withAddress (some a))
  | .deleteAddress name _ => c.update name (·.withAddress none)
  | .disableInterface name => c.update name (·.withAdmin .down)
  | .enableInterface name => c.update name (·.withAdmin .up)

theorem Configuration.Edited.eq_write {c c' : Configuration} {e : Edit} (h : Edited c e c') :
    c' = e.write c := by
  cases h with
  | @removeRoute route routes hr =>
    unfold RoutingTable.remove? at hr
    split at hr
    · obtain rfl := Option.some.inj hr
      rfl
    · cases hr
  | addRoute | disableRoute | setAddress | deleteAddress | disableInterface | enableInterface =>
    rfl

/-- The ways to write at a target without moving anything. -/
inductive Edit.InPlace : Edit.Target → (Configuration → Configuration) → Prop
  | address (name : String) (a : Option InterfaceAddress) :
      InPlace (.address name) fun c => c.update name (·.withAddress a)
  | admin (name : String) (s : AdminState) :
      InPlace (.admin name) fun c => c.update name (·.withAdmin s)
  | route {key : Network × RouteTarget × Distance} {f : StaticRoute → Option StaticRoute} :
      (∀ e e', f e = some e' → e'.key = e.key) →
      InPlace (.route key) fun c =>
        { c with routes := ⟨RoutingTable.changeFirst key f c.routes.entries⟩ }

theorem Edit.exists_addRoute_or (e : Edit) :
    (∃ route, e = .addRoute route) ∨ ∀ route, e ≠ .addRoute route := by
  cases e with
  | addRoute route => exact .inl ⟨route, rfl⟩
  | removeRoute | disableRoute | setAddress | deleteAddress | disableInterface | enableInterface =>
    exact .inr nofun

/-- Only a new route is not written in place. -/
theorem Edit.inPlace_of_ne_addRoute {e : Edit} (h : ∀ route, e ≠ .addRoute route) :
    InPlace e.target (e.write ·) := by
  cases e with
  | addRoute route => exact absurd rfl (h route)
  | removeRoute route =>
    simp only [write, RoutingTable.eraseP_eq_changeFirst]
    exact .route nofun
  | disableRoute route =>
    simp only [write, RoutingTable.disable, RoutingTable.disableFirst_eq_changeFirst]
    exact .route fun e e' he => Option.some.inj he ▸ rfl
  | setAddress name a => exact .address name (some a)
  | deleteAddress name a? => exact .address name none
  | disableInterface name => exact .admin name .down
  | enableInterface name => exact .admin name .up

namespace Edit.InPlace

variable {t t' : Edit.Target} {w w' : Configuration → Configuration}

theorem comm (h : InPlace t w) (h' : InPlace t' w') (ht : t ≠ t') (c : Configuration) :
    w (w' c) = w' (w c) := by
  cases h with
  | address name a =>
    cases h' with
    | address other b =>
      have hne : name ≠ other := fun hn => ht (congrArg _ hn)
      exact c.update_comm (f := (·.withAddress a)) (g := (·.withAddress b)) (fun _ => rfl)
        (fun _ => rfl) fun hn => absurd hn hne
    | admin other s =>
      exact c.update_comm (f := (·.withAddress a)) (g := (·.withAdmin s)) (fun _ => rfl)
        (fun _ => rfl) fun _ _ => rfl
    | route => rfl
  | admin name s =>
    cases h' with
    | address other a =>
      exact c.update_comm (f := (·.withAdmin s)) (g := (·.withAddress a)) (fun _ => rfl)
        (fun _ => rfl) fun _ _ => rfl
    | admin other s' =>
      have hne : name ≠ other := fun hn => ht (congrArg _ hn)
      exact c.update_comm (f := (·.withAdmin s)) (g := (·.withAdmin s')) (fun _ => rfl)
        (fun _ => rfl) fun hn => absurd hn hne
    | route => rfl
  | @route key f hf =>
    cases h' with
    | address | admin => rfl
    | @route other g hg =>
      have hne : key ≠ other := fun hk => ht (congrArg _ hk)
      exact congrArg (Configuration.mk c.interfaces ⟨·⟩)
        (RoutingTable.changeFirst_comm hne hf hg c.routes.entries)

theorem comm_addRoute (h : InPlace t w) {route : StaticRoute} (ht : t ≠ .route route.key)
    (c : Configuration) : w (c.addRoute route) = (w c).addRoute route := by
  cases h with
  | address | admin => rfl
  | @route key f hf =>
    have hne : route.key ≠ key := fun hk => ht (congrArg _ hk.symm)
    exact congrArg (Configuration.mk c.interfaces ⟨·⟩)
      (RoutingTable.changeFirst_concat hne c.routes.entries)

theorem names_eq (h : InPlace t w) (c : Configuration) : (w c).names = c.names := by
  cases h with
  | address name a => exact c.names_updateAddress name a
  | admin name s => exact c.names_updateAdmin name s
  | route => rfl

end Edit.InPlace

theorem Edit.names_write (e : Edit) (c : Configuration) : (e.write c).names = c.names := by
  obtain ⟨route, rfl⟩ | h := e.exists_addRoute_or
  · rfl
  · exact (inPlace_of_ne_addRoute h).names_eq c

/-- Writes at different targets commute, unless both add a route. -/
theorem Edit.write_comm {e f : Edit} (ht : e.target ≠ f.target)
    (hadd : ∀ route, e ≠ .addRoute route) (c : Configuration) :
    e.write (f.write c) = f.write (e.write c) := by
  have he := inPlace_of_ne_addRoute hadd
  obtain ⟨route, rfl⟩ | hf := f.exists_addRoute_or
  · exact he.comm_addRoute ht c
  · exact he.comm (inPlace_of_ne_addRoute hf) ht c

namespace Configuration

/-- The two configurations have the same at this target. -/
def SameAt (c d : Configuration) : Edit.Target → Prop
  | .address name => (c.settings name).map Prod.fst = (d.settings name).map Prod.fst
  | .admin name => (c.settings name).map Prod.snd = (d.settings name).map Prod.snd
  | .route key => c.routes.entries.find? (·.key == key) = d.routes.entries.find? (·.key == key)

theorem SameAt.symm {c d : Configuration} {t : Edit.Target} (h : SameAt c d t) : SameAt d c t := by
  cases t with
  | address | admin | route => exact Eq.symm h

/-- An interface that shows an address in one configuration shows it in the other. -/
theorem SameAt.address {c d : Configuration} {name : String} {a : Option InterfaceAddress}
    {admin : AdminState} (h : SameAt c d (.address name)) (hs : c.settings name = some (a, admin)) :
    ∃ admin', d.settings name = some (a, admin') := by
  rw [SameAt, hs, Option.map_some] at h
  obtain ⟨⟨a', admin'⟩, hd, rfl⟩ := Option.map_eq_some_iff.mp h.symm
  exact ⟨admin', hd⟩

theorem SameAt.admin {c d : Configuration} {name : String} {a : Option InterfaceAddress}
    {admin : AdminState} (h : SameAt c d (.admin name)) (hs : c.settings name = some (a, admin)) :
    ∃ a', d.settings name = some (a', admin) := by
  rw [SameAt, hs, Option.map_some] at h
  obtain ⟨⟨a', admin'⟩, hd, rfl⟩ := Option.map_eq_some_iff.mp h.symm
  exact ⟨a', hd⟩

theorem SameAt.find? {c d : Configuration} {r : StaticRoute} (h : SameAt c d (.route r.key)) :
    c.routes.find? r = d.routes.find? r := h

theorem SameAt.key_mem {c d : Configuration} {r : StaticRoute} (h : SameAt c d (.route r.key)) :
    r.key ∈ c.routes.keys ↔ r.key ∈ d.routes.keys := by
  rw [RoutingTable.key_mem_iff_find?, RoutingTable.key_mem_iff_find?, h.find?]

/-- Whether and why an edit is refused is decided by the names of the interfaces and by its
target. -/
theorem SameAt.refused {c d : Configuration} {e : Edit} {err : RouterError}
    (hn : c.names = d.names) (h : SameAt c d e.target) (he : Refused c e err) :
    Refused d e err := by
  cases he with
  | noInterface hi hname => exact .noInterface hi (hn ▸ hname)
  | noTarget ht hname => exact .noTarget ht (hn ▸ hname)
  | routeThere ht hk => exact .routeThere (hn ▸ ht) (h.key_mem.mp hk)
  | noRouteToDelete hk => exact .noRouteToDelete (mt h.key_mem.mpr hk)
  | noSuchRoute hk => exact .noSuchRoute (mt h.key_mem.mpr hk)
  | routeDisabled hf hd => exact .routeDisabled (h.find? ▸ hf) hd
  | @unusable name s a problem hs hp =>
    obtain ⟨old, admin⟩ := s
    obtain ⟨admin', hs'⟩ := h.address hs
    exact .unusable hs' hp
  | addressThere hs hp =>
    obtain ⟨admin', hs'⟩ := h.address hs
    exact .addressThere hs' hp
  | noAddressToDelete hs ho =>
    obtain ⟨admin', hs'⟩ := h.address hs
    exact .noAddressToDelete hs' ho
  | alreadyDisabled hs =>
    obtain ⟨a', hs'⟩ := h.admin hs
    exact .alreadyDisabled hs'
  | notDisabled hs =>
    obtain ⟨a', hs'⟩ := h.admin hs
    exact .notDisabled hs'

end Configuration

/-- A write in place is not seen at another target. -/
theorem Edit.InPlace.sameAt {t t' : Edit.Target} {w : Configuration → Configuration}
    (h : InPlace t w) (ht : t ≠ t') (c : Configuration) : c.SameAt (w c) t' := by
  cases h with
  | address name a =>
    cases t' with
    | address other =>
      have hne : other ≠ name := fun hn => ht (congrArg _ hn.symm)
      rw [Configuration.SameAt, Configuration.settings_update_address, if_neg hne]
    | admin other =>
      rw [Configuration.SameAt, Configuration.settings_update_address]
      split
      · rename_i hn
        rw [hn, Option.map_map]
        rfl
      · rfl
    | route key => rfl
  | admin name s =>
    cases t' with
    | address other =>
      rw [Configuration.SameAt, Configuration.settings_update_admin]
      split
      · rename_i hn
        rw [hn, Option.map_map]
        rfl
      · rfl
    | admin other =>
      have hne : other ≠ name := fun hn => ht (congrArg _ hn.symm)
      rw [Configuration.SameAt, Configuration.settings_update_admin, if_neg hne]
    | route key => rfl
  | @route key f hf =>
    cases t' with
    | address | admin => rfl
    | route other =>
      have hne : key ≠ other := fun hk => ht (congrArg _ hk)
      exact (RoutingTable.find?_changeFirst hne hf c.routes.entries).symm

/-- An accepted edit is not seen at another target. -/
theorem Edit.sameAt_write {e : Edit} {t : Edit.Target} (ht : e.target ≠ t) (c : Configuration) :
    c.SameAt (e.write c) t := by
  obtain ⟨route, rfl⟩ | h := e.exists_addRoute_or
  · cases t with
    | address | admin => rfl
    | route key =>
      have hne : route.key ≠ key := fun hk => ht (congrArg _ hk)
      exact (RoutingTable.find?_concat_of_ne hne c.routes.entries).symm
  · exact (inPlace_of_ne_addRoute h).sameAt ht c

end RouterConsole
