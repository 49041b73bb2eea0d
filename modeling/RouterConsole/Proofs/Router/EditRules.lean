import RouterConsole.Router.Edit

/-!
# The rules of editing

Of an interface an edit reads and writes only its settings, the address and the administrative
state. The rules below say, in terms of the settings under each name and of the route table, when
an edit is accepted and with which result (`Edited`), and when and why it is refused (`Refused`).
Every edit falls under exactly one rule, so later proofs go by the rules and do not open `edit`. An
edit that is accepted changes something.
-/
namespace RouterConsole

open IPv4 (InterfaceAddress)

/-- The interface that an edit names, for the edits that change one. -/
def Edit.interface? : Edit → Option String
  | .setAddress name _ | .deleteAddress name _ | .disableInterface name | .enableInterface name =>
    some name
  | .addRoute _ | .removeRoute _ | .disableRoute _ => none

namespace RoutingTable

theorem find?_disable (t : RoutingTable) (r : StaticRoute) :
    (t.disable r).find? r = (t.find? r).map fun e => { e with disabled := true } := by
  simp only [find?, disable]
  induction t.entries with
  | nil => rfl
  | cons e es ih =>
    unfold disableFirst
    cases hs : e.same r with
    | true =>
      have hs' : ({ e with disabled := true } : StaticRoute).same r = true := hs
      simp only [if_true, List.find?_cons, hs, hs', Option.map_some]
    | false => simp only [Bool.false_eq_true, if_false, List.find?_cons, hs, ih]

end RoutingTable

namespace Configuration

/-- The address and the administrative state of the first interface with this name. -/
def settings (c : Configuration) (name : String) : Option (Option InterfaceAddress × AdminState) :=
  (c.interface? name).map fun i => (i.address, i.status.admin)

theorem settings_eq_none_iff {c : Configuration} {name : String} :
    c.settings name = none ↔ name ∉ c.names := by
  rw [settings, Option.map_eq_none_iff, interface?_eq_none_iff]

theorem mem_names_of_settings {c : Configuration} {name : String}
    {s : Option InterfaceAddress × AdminState} (h : c.settings name = some s) :
    name ∈ c.names := by
  by_cases hn : name ∈ c.names
  · exact hn
  · rw [settings_eq_none_iff.mpr hn] at h
    cases h

theorem settings_eq_some_iff {c : Configuration} {name : String}
    {s : Option InterfaceAddress × AdminState} :
    c.settings name = some s ↔
      ∃ i, c.interface? name = some i ∧ i.address = s.1 ∧ i.status.admin = s.2 := by
  simp only [settings, Option.map_eq_some_iff, Prod.ext_iff]

theorem updateFirst_cons_self {name : String} {i : Interface} (h : i.name = name)
    (f : Interface → Interface) (is : List Interface) :
    updateFirst name f (i :: is) = f i :: is := if_pos (beq_iff_eq.mpr h)

theorem updateFirst_cons_of_ne {name : String} {i : Interface} (h : i.name ≠ name)
    (f : Interface → Interface) (is : List Interface) :
    updateFirst name f (i :: is) = i :: updateFirst name f is := if_neg (by simpa using h)

theorem find?_updateFirst {f : Interface → Interface} (hf : ∀ i, (f i).name = i.name)
    (name other : String) (is : List Interface) :
    (updateFirst name f is).find? (·.name == other) =
      if other = name then (is.find? (·.name == name)).map f
      else is.find? (·.name == other) := by
  induction is with
  | nil => simp [updateFirst]
  | cons i is ih =>
    by_cases hi : i.name = name
    · rw [updateFirst_cons_self hi]
      by_cases ho : other = name
      · simp [hf, hi, ho]
      · have hne : i.name ≠ other := fun h => ho (h.symm.trans hi)
        simp [hf, hne, ho]
    · rw [updateFirst_cons_of_ne hi]
      by_cases hio : i.name = other
      · have ho : other ≠ name := fun h => hi (hio.trans h)
        simp [hio, ho]
      · have hin : (i.name == name) = false := beq_false_of_ne hi
        have hio' : (i.name == other) = false := beq_false_of_ne hio
        simp only [List.find?_cons, hin, hio', ih]

/-- Changing an interface shows under its name and under no other. -/
theorem interface?_update {f : Interface → Interface} (hf : ∀ i, (f i).name = i.name)
    (c : Configuration) (name other : String) :
    (c.update name f).interface? other =
      if other = name then (c.interface? name).map f else c.interface? other :=
  find?_updateFirst hf name other c.interfaces

theorem updateFirst_congr {name : String} {i : Interface} {f g : Interface → Interface}
    (hfg : f i = g i) {is : List Interface} (h : is.find? (·.name == name) = some i) :
    updateFirst name f is = updateFirst name g is := by
  induction is with
  | nil => rfl
  | cons j is ih =>
    by_cases hn : j.name = name
    · simp only [List.find?_cons, hn, beq_self_eq_true, Option.some.injEq] at h
      subst h
      rw [updateFirst_cons_self hn, updateFirst_cons_self hn, hfg]
    · have hin : (j.name == name) = false := beq_false_of_ne hn
      simp only [List.find?_cons, hin] at h
      rw [updateFirst_cons_of_ne hn, updateFirst_cons_of_ne hn, ih h]

/-- Only what a change does to the interface that it finds matters. -/
theorem update_congr {c : Configuration} {name : String} {i : Interface}
    {f g : Interface → Interface} (h : c.interface? name = some i) (hfg : f i = g i) :
    c.update name f = c.update name g := by
  rw [update, update, updateFirst_congr hfg h]

theorem updateFirst_id (name : String) (is : List Interface) :
    updateFirst name (fun i => i) is = is := by
  induction is with
  | nil => rfl
  | cons i is ih =>
    unfold updateFirst
    rw [ih, ite_self]

/-- A change that the interface does not show changes nothing. -/
theorem update_of_fixed {c : Configuration} {name : String} {i : Interface}
    {f : Interface → Interface} (h : c.interface? name = some i) (hf : f i = i) :
    c.update name f = c := by
  rw [update_congr (g := fun j => j) h hf, update, updateFirst_id]

theorem settings_update_address (c : Configuration) (name other : String)
    (a : Option InterfaceAddress) :
    (c.update name (·.withAddress a)).settings other =
      if other = name then (c.settings name).map fun s => (a, s.2) else c.settings other := by
  rw [settings, interface?_update (f := fun i => i.withAddress a) fun _ => rfl]
  split
  · rw [settings, Option.map_map, Option.map_map]
    rfl
  · rfl

theorem settings_update_admin (c : Configuration) (name other : String) (a : AdminState) :
    (c.update name (·.withAdmin a)).settings other =
      if other = name then (c.settings name).map fun s => (s.1, a) else c.settings other := by
  rw [settings, interface?_update (f := fun i => i.withAdmin a) fun _ => rfl]
  split
  · rw [settings, Option.map_map, Option.map_map]
    rfl
  · rfl

/-- The blank slate has the same names and nothing set. -/
theorem settings_cleared (c : Configuration) (name : String) :
    c.cleared.settings name = if name ∈ c.names then some (none, .up) else none := by
  split
  · rename_i hn
    cases hs : c.cleared.settings name with
    | none =>
      rw [settings_eq_none_iff, names_cleared] at hs
      exact absurd hn hs
    | some s =>
      obtain ⟨i, hi, ha, hd⟩ := settings_eq_some_iff.mp hs
      obtain ⟨j, -, rfl⟩ := List.mem_map.mp (List.mem_of_find?_eq_some hi)
      exact congrArg some (Prod.ext ha.symm hd.symm)
  · rename_i hn
    rw [settings_eq_none_iff, names_cleared]
    exact hn

/-- When an edit is accepted, and what it makes of the configuration. -/
inductive Edited (c : Configuration) : Edit → Configuration → Prop
  | addRoute {route : StaticRoute} :
      (∀ name, route.target = .interface name → name ∈ c.names) → route.key ∉ c.routes.keys →
      Edited c (.addRoute route) { c with routes := c.routes.add route }
  | removeRoute {route : StaticRoute} {routes : RoutingTable} :
      c.routes.remove? route = some routes →
      Edited c (.removeRoute route) { c with routes := routes }
  | disableRoute {route entry : StaticRoute} :
      c.routes.find? route = some entry → entry.disabled = false →
      Edited c (.disableRoute route) { c with routes := c.routes.disable route }
  | setAddress {name : String} {old : Option InterfaceAddress} {admin : AdminState}
      {a : InterfaceAddress} :
      c.settings name = some (old, admin) → addressProblem? a = none → old ≠ some a →
      Edited c (.setAddress name a) (c.update name (·.withAddress (some a)))
  | deleteAddress {name : String} {old : InterfaceAddress} {admin : AdminState}
      {a? : Option InterfaceAddress} :
      c.settings name = some (some old, admin) → (∀ a, a? = some a → a = old) →
      Edited c (.deleteAddress name a?) (c.update name (·.withAddress none))
  | disableInterface {name : String} {a : Option InterfaceAddress} :
      c.settings name = some (a, .up) →
      Edited c (.disableInterface name) (c.update name (·.withAdmin .down))
  | enableInterface {name : String} {a : Option InterfaceAddress} :
      c.settings name = some (a, .down) →
      Edited c (.enableInterface name) (c.update name (·.withAdmin .up))

/-- When an edit is refused, and why. -/
inductive Refused (c : Configuration) : Edit → RouterError → Prop
  | noInterface {e : Edit} {name : String} : e.interface? = some name → name ∉ c.names →
      Refused c e (.noSuchInterface name)
  | noTarget {route : StaticRoute} {name : String} : route.target = .interface name →
      name ∉ c.names → Refused c (.addRoute route) (.noSuchInterface name)
  | routeThere {route : StaticRoute} :
      (∀ name, route.target = .interface name → name ∈ c.names) → route.key ∈ c.routes.keys →
      Refused c (.addRoute route) .routeExists
  | noRouteToDelete {route : StaticRoute} : route.key ∉ c.routes.keys →
      Refused c (.removeRoute route) .noRouteToDelete
  | noSuchRoute {route : StaticRoute} : route.key ∉ c.routes.keys →
      Refused c (.disableRoute route) .noSuchRoute
  | routeDisabled {route entry : StaticRoute} :
      c.routes.find? route = some entry → entry.disabled = true →
      Refused c (.disableRoute route) .routeExists
  | unusable {name : String} {s : Option InterfaceAddress × AdminState} {a : InterfaceAddress}
      {problem : AddressProblem} :
      c.settings name = some s → addressProblem? a = some problem →
      Refused c (.setAddress name a) (.unusableAddress a problem a.suggestion?)
  | addressThere {name : String} {admin : AdminState} {a : InterfaceAddress} :
      c.settings name = some (some a, admin) → addressProblem? a = none →
      Refused c (.setAddress name a) .addressExists
  | noAddressToDelete {name : String} {old : Option InterfaceAddress} {admin : AdminState}
      {a? : Option InterfaceAddress} :
      c.settings name = some (old, admin) → (old = none ∨ ∃ a, a? = some a ∧ old ≠ some a) →
      Refused c (.deleteAddress name a?) .noAddressToDelete
  | alreadyDisabled {name : String} {a : Option InterfaceAddress} :
      c.settings name = some (a, .down) →
      Refused c (.disableInterface name) (.alreadyDisabled name)
  | notDisabled {name : String} {a : Option InterfaceAddress} :
      c.settings name = some (a, .up) → Refused c (.enableInterface name) (.notDisabled name)

theorem requireInterface_of_interface? {c : Configuration} {name : String} {i : Interface}
    (h : c.interface? name = some i) : c.requireInterface name = .ok i := by
  simp only [requireInterface, h, Option.elim_some]

theorem requireInterface_of_not_mem {c : Configuration} {name : String} (h : name ∉ c.names) :
    c.requireInterface name = .error (.noSuchInterface name) := by
  simp only [requireInterface, interface?_eq_none_iff.mpr h, Option.elim_none]

theorem exists_interface? {c : Configuration} {name : String} (h : name ∈ c.names) :
    ∃ i, c.interface? name = some i := by
  cases hi : c.interface? name with
  | none => exact absurd h (interface?_eq_none_iff.mp hi)
  | some i => exact ⟨i, rfl⟩

theorem Edited.edit_eq {c c' : Configuration} {e : Edit} (h : Edited c e c') :
    c.edit e = .ok c' := by
  cases h with
  | @addRoute route ht hk =>
    have hc : c.routes.contains route = false := by
      rw [← Bool.not_eq_true, RoutingTable.contains_iff]
      exact hk
    simp only [edit]
    cases hr : route.target with
    | nextHop g => simp [hc, pure, Except.pure]
    | interface name =>
      obtain ⟨i, hi⟩ := exists_interface? (ht name hr)
      simp [requireInterface_of_interface? hi, hc, bind, Except.bind, pure, Except.pure]
  | removeRoute hr => simp only [edit, hr]
  | disableRoute hf hd => simp only [edit, hf, hd, Bool.false_eq_true, if_false]
  | setAddress hs hp ho =>
    obtain ⟨i, hi, ha, -⟩ := settings_eq_some_iff.mp hs
    simp [edit, requireInterface_of_interface? hi, hp, ha, ho, bind, Except.bind, pure, Except.pure]
  | @deleteAddress name old admin a? hs ho =>
    obtain ⟨i, hi, ha, -⟩ := settings_eq_some_iff.mp hs
    have hc : (i.address.isNone || (a?.isSome && i.address != a?)) = false := by
      cases a? with
      | none => simp [ha]
      | some a => simp [ha, ho a rfl]
    simp [edit, requireInterface_of_interface? hi, hc, bind, Except.bind, pure, Except.pure]
  | disableInterface hs =>
    obtain ⟨i, hi, -, ha⟩ := settings_eq_some_iff.mp hs
    have hd : i.disable = .ok (i.withAdmin .down) := by
      simp [Interface.disable, Interface.isAdminDown, ha]
    simp only [edit, requireInterface_of_interface? hi, hd, bind, Except.bind, pure, Except.pure]
    exact congrArg Except.ok (update_congr hi rfl)
  | enableInterface hs =>
    obtain ⟨i, hi, -, ha⟩ := settings_eq_some_iff.mp hs
    have hd : i.enable = .ok (i.withAdmin .up) := by
      simp [Interface.enable, Interface.isAdminDown, ha]
    simp only [edit, requireInterface_of_interface? hi, hd, bind, Except.bind, pure, Except.pure]
    exact congrArg Except.ok (update_congr hi rfl)

theorem Refused.edit_eq {c : Configuration} {e : Edit} {err : RouterError} (h : Refused c e err) :
    c.edit e = .error err := by
  cases h with
  | noInterface he hn =>
    cases e with
    | addRoute route | removeRoute route | disableRoute route => cases he
    | setAddress other a | deleteAddress other a | disableInterface other
      | enableInterface other =>
      obtain rfl := Option.some.inj he
      simp [edit, requireInterface_of_not_mem hn, bind, Except.bind]
  | noTarget ht hn =>
    simp [edit, ht, requireInterface_of_not_mem hn, bind, Except.bind]
  | @routeThere route ht hk =>
    have hc : c.routes.contains route = true := RoutingTable.contains_iff.mpr hk
    simp only [edit]
    cases hr : route.target with
    | nextHop g =>
      simp only [hc, if_true]
      rfl
    | interface name =>
      obtain ⟨i, hi⟩ := exists_interface? (ht name hr)
      simp [requireInterface_of_interface? hi, hc, bind, Except.bind, throw, throwThe,
        MonadExceptOf.throw]
  | @noRouteToDelete route hk =>
    have hc : ¬c.routes.contains route = true := fun h => hk (RoutingTable.contains_iff.mp h)
    simp only [edit, RoutingTable.remove?, if_neg hc]
  | @noSuchRoute route hk =>
    have hf : c.routes.find? route = none := by
      cases hf : c.routes.find? route with
      | none => rfl
      | some entry =>
        have hc : c.routes.contains route = true := by rw [← RoutingTable.isSome_find?, hf]; rfl
        exact absurd (RoutingTable.contains_iff.mp hc) hk
    simp only [edit, hf]
  | routeDisabled hf hd => simp only [edit, hf, hd, if_true]
  | unusable hs hp =>
    obtain ⟨i, hi, -, -⟩ := settings_eq_some_iff.mp hs
    simp [edit, requireInterface_of_interface? hi, hp, bind, Except.bind, throw, throwThe,
      MonadExceptOf.throw]
  | addressThere hs hp =>
    obtain ⟨i, hi, ha, -⟩ := settings_eq_some_iff.mp hs
    simp [edit, requireInterface_of_interface? hi, hp, ha, bind, Except.bind, throw, throwThe,
      MonadExceptOf.throw]
  | @noAddressToDelete name old admin a? hs ho =>
    obtain ⟨i, hi, ha, -⟩ := settings_eq_some_iff.mp hs
    have hc : (i.address.isNone || (a?.isSome && i.address != a?)) = true := by
      rcases ho with rfl | ⟨a, rfl, hne⟩
      · simp [ha]
      · simp [ha, hne]
    simp [edit, requireInterface_of_interface? hi, hc, bind, Except.bind, throw, throwThe,
      MonadExceptOf.throw]
  | @alreadyDisabled name a hs =>
    obtain ⟨i, hi, -, ha⟩ := settings_eq_some_iff.mp hs
    have hd : i.disable = .error (.alreadyDisabled name) := by
      simp [Interface.disable, Interface.isAdminDown, ha, name_of_interface? hi]
    simp only [edit, requireInterface_of_interface? hi, hd, bind, Except.bind]
  | @notDisabled name a hs =>
    obtain ⟨i, hi, -, ha⟩ := settings_eq_some_iff.mp hs
    have hd : i.enable = .error (.notDisabled name) := by
      simp [Interface.enable, Interface.isAdminDown, ha, name_of_interface? hi]
    simp only [edit, requireInterface_of_interface? hi, hd, bind, Except.bind]

/-- No edit escapes the rules. -/
theorem edited_or_refused (c : Configuration) (e : Edit) :
    (∃ c', Edited c e c') ∨ ∃ err, Refused c e err := by
  cases e with
  | addRoute route =>
    by_cases ht : ∀ name, route.target = .interface name → name ∈ c.names
    · by_cases hk : route.key ∈ c.routes.keys
      · exact .inr ⟨_, .routeThere ht hk⟩
      · exact .inl ⟨_, .addRoute ht hk⟩
    · obtain ⟨name, hr⟩ := Classical.not_forall.mp ht
      obtain ⟨hr, hn⟩ := Classical.not_imp.mp hr
      exact .inr ⟨_, .noTarget hr hn⟩
  | removeRoute route =>
    cases hr : c.routes.remove? route with
    | some routes => exact .inl ⟨_, .removeRoute hr⟩
    | none =>
      refine .inr ⟨_, .noRouteToDelete fun hk => ?_⟩
      rw [RoutingTable.remove?, if_pos (RoutingTable.contains_iff.mpr hk)] at hr
      cases hr
  | disableRoute route =>
    cases hf : c.routes.find? route with
    | none =>
      refine .inr ⟨_, .noSuchRoute fun hk => ?_⟩
      have hc := RoutingTable.contains_iff.mpr hk
      rw [← RoutingTable.isSome_find?, hf] at hc
      cases hc
    | some entry =>
      cases hd : entry.disabled with
      | true => exact .inr ⟨_, .routeDisabled hf hd⟩
      | false => exact .inl ⟨_, .disableRoute hf hd⟩
  | setAddress name a =>
    cases hs : c.settings name with
    | none => exact .inr ⟨_, .noInterface rfl (settings_eq_none_iff.mp hs)⟩
    | some s =>
      obtain ⟨old, admin⟩ := s
      cases hp : addressProblem? a with
      | some problem => exact .inr ⟨_, .unusable hs hp⟩
      | none =>
        by_cases ho : old = some a
        · subst ho
          exact .inr ⟨_, .addressThere hs hp⟩
        · exact .inl ⟨_, .setAddress hs hp ho⟩
  | deleteAddress name a? =>
    cases hs : c.settings name with
    | none => exact .inr ⟨_, .noInterface rfl (settings_eq_none_iff.mp hs)⟩
    | some s =>
      obtain ⟨old, admin⟩ := s
      cases old with
      | none => exact .inr ⟨_, .noAddressToDelete hs (.inl rfl)⟩
      | some old =>
        by_cases ho : ∀ a, a? = some a → a = old
        · exact .inl ⟨_, .deleteAddress hs ho⟩
        · obtain ⟨a, ha⟩ := Classical.not_forall.mp ho
          obtain ⟨ha, hne⟩ := Classical.not_imp.mp ha
          have hold : some old ≠ some a := fun h => hne (Option.some.inj h).symm
          exact .inr ⟨_, .noAddressToDelete hs (.inr ⟨a, ha, hold⟩)⟩
  | disableInterface name =>
    cases hs : c.settings name with
    | none => exact .inr ⟨_, .noInterface rfl (settings_eq_none_iff.mp hs)⟩
    | some s =>
      obtain ⟨a, admin⟩ := s
      cases admin with
      | up => exact .inl ⟨_, .disableInterface hs⟩
      | down => exact .inr ⟨_, .alreadyDisabled hs⟩
  | enableInterface name =>
    cases hs : c.settings name with
    | none => exact .inr ⟨_, .noInterface rfl (settings_eq_none_iff.mp hs)⟩
    | some s =>
      obtain ⟨a, admin⟩ := s
      cases admin with
      | up => exact .inr ⟨_, .notDisabled hs⟩
      | down => exact .inl ⟨_, .enableInterface hs⟩

/-- An edit is accepted exactly by the rules. -/
theorem edit_eq_ok_iff {c c' : Configuration} {e : Edit} : c.edit e = .ok c' ↔ Edited c e c' := by
  constructor
  · intro h
    rcases edited_or_refused c e with ⟨d, hd⟩ | ⟨err, he⟩
    · rw [hd.edit_eq] at h
      exact Except.ok.inj h ▸ hd
    · rw [he.edit_eq] at h
      cases h
  · exact Edited.edit_eq

/-- An edit is refused exactly by the rules. -/
theorem edit_eq_error_iff {c : Configuration} {e : Edit} {err : RouterError} :
    c.edit e = .error err ↔ Refused c e err := by
  constructor
  · intro h
    rcases edited_or_refused c e with ⟨d, hd⟩ | ⟨err', he⟩
    · rw [hd.edit_eq] at h
      cases h
    · rw [he.edit_eq] at h
      exact Except.error.inj h ▸ he
  · exact Refused.edit_eq

/-- An accepted edit changes the configuration. -/
theorem Edited.ne {c c' : Configuration} {e : Edit} (h : Edited c e c') : c' ≠ c := by
  -- A route shows in the table, and a setting under the name of its interface.
  have hroutes : c'.routes ≠ c.routes → c' ≠ c := mt (congrArg Configuration.routes)
  have hsettings : ∀ name, c'.settings name ≠ c.settings name → c' ≠ c := fun name =>
    mt (congrArg (Configuration.settings · name))
  cases h with
  | @addRoute route _ hk =>
    refine hroutes fun he => hk ?_
    have hkeys := congrArg RoutingTable.keys he
    rw [RoutingTable.keys_add] at hkeys
    exact hkeys ▸ List.mem_append_right _ List.mem_cons_self
  | removeRoute hr =>
    obtain ⟨hmem, hkeys⟩ := RoutingTable.keys_remove? hr
    refine hroutes fun he => ?_
    have hlength := congrArg (fun t => t.keys.length) he
    simp only [hkeys, List.length_erase_of_mem hmem] at hlength
    have hpos := List.length_pos_of_mem hmem
    omega
  | @disableRoute route entry hf hd =>
    refine hroutes fun he => ?_
    have hfind := congrArg (·.find? route) he
    simp only [RoutingTable.find?_disable, hf, Option.map_some, Option.some.injEq] at hfind
    rw [← hfind] at hd
    cases hd
  | @setAddress name old admin a hs _ ho =>
    refine hsettings name ?_
    rw [settings_update_address, if_pos rfl, hs]
    simpa using Ne.symm ho
  | @deleteAddress name old admin a? hs _ =>
    refine hsettings name ?_
    rw [settings_update_address, if_pos rfl, hs]
    simp
  | @disableInterface name a hs =>
    refine hsettings name ?_
    rw [settings_update_admin, if_pos rfl, hs]
    simp
  | @enableInterface name a hs =>
    refine hsettings name ?_
    rw [settings_update_admin, if_pos rfl, hs]
    simp

end Configuration

end RouterConsole
