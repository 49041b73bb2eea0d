import RouterConsole.Proofs.Config.Reachable
import RouterConsole.Proofs.Router.EditRules

/-!
# Well-formed configurations

No route stands twice in a table, every interface that a route leaves by exists, and no interface
has the first or the last address of its network. The table itself checks none of this, so it rests
on every change of the router; here each of them is shown to keep it, in both copies of the
configuration, and so every reachable router has it. Along the way the names of the interfaces
never change.
-/
namespace RouterConsole

/-- Every address that is set is one that an interface may have. -/
def Usable (interfaces : List Interface) : Prop :=
  ∀ i ∈ interfaces, ∀ a, i.address = some a → addressProblem? a = none

/-- An address that is neither the first nor the last of its network, unless the prefix leaves no
room for these two. -/
def UsableAddress (a : IPv4.InterfaceAddress) : Prop :=
  a.length.val < 31 → a.address ≠ a.network.base ∧ a.address.toNat ≠ a.network.last

theorem addressProblem?_eq_none_iff {a : IPv4.InterfaceAddress} :
    addressProblem? a = none ↔ UsableAddress a := by
  have hnone : addressProblem? a = none ↔
      a.isNetworkAddress = false ∧ a.isBroadcastAddress = false := by
    rw [addressProblem?]
    cases a.isNetworkAddress <;> cases a.isBroadcastAddress <;> simp
  have hroom : a.isHostOnly = false ↔ a.length.val < 31 := by
    rw [IPv4.InterfaceAddress.isHostOnly, decide_eq_false_iff_not, Nat.not_le]
  rw [hnone, UsableAddress, ← hroom, IPv4.InterfaceAddress.isNetworkAddress,
    IPv4.InterfaceAddress.isBroadcastAddress]
  cases a.isHostOnly <;> simp

theorem usable_iff {interfaces : List Interface} :
    Usable interfaces ↔ ∀ i ∈ interfaces, ∀ a, i.address = some a → UsableAddress a := by
  simp only [Usable, addressProblem?_eq_none_iff]

namespace Configuration

structure WellFormed (c : Configuration) : Prop where
  keys_nodup : c.routes.keys.Nodup
  targets : ∀ key ∈ c.routes.keys, ∀ name, key.2.1 = .interface name → name ∈ c.names
  usable : Usable c.interfaces

theorem names_updateAddress (c : Configuration) (name : String)
    (a : Option IPv4.InterfaceAddress) : (c.update name (·.withAddress a)).names = c.names :=
  names_update fun _ => rfl

theorem names_updateAdmin (c : Configuration) (name : String) (a : AdminState) :
    (c.update name (·.withAdmin a)).names = c.names := names_update fun _ => rfl

theorem mem_updateFirst {name : String} {f : Interface → Interface} {is : List Interface}
    {i : Interface} (h : i ∈ updateFirst name f is) : i ∈ is ∨ ∃ j ∈ is, i = f j := by
  induction is with
  | nil => exact .inl h
  | cons j is ih =>
    unfold updateFirst at h
    split at h
    · rcases List.mem_cons.mp h with rfl | h
      · exact .inr ⟨j, List.mem_cons_self, rfl⟩
      · exact .inl (List.mem_cons_of_mem _ h)
    · rcases List.mem_cons.mp h with rfl | h
      · exact .inl List.mem_cons_self
      · rcases ih h with h | ⟨k, hk, rfl⟩
        · exact .inl (List.mem_cons_of_mem _ h)
        · exact .inr ⟨k, List.mem_cons_of_mem _ hk, rfl⟩

/-- An edit changes no name. -/
theorem Edited.names_eq {c c' : Configuration} {e : Edit} (h : Edited c e c') :
    c'.names = c.names := by
  cases h with
  | addRoute | removeRoute | disableRoute => rfl
  | setAddress => exact names_updateAddress _ _ _
  | deleteAddress => exact names_updateAddress _ _ _
  | disableInterface => exact names_updateAdmin _ _ _
  | enableInterface => exact names_updateAdmin _ _ _

theorem usable_updateAddress {c : Configuration} (h : Usable c.interfaces) (name : String)
    {a : Option IPv4.InterfaceAddress} (ha : ∀ b, a = some b → addressProblem? b = none) :
    Usable (c.update name (·.withAddress a)).interfaces := by
  intro i hi b hb
  rcases mem_updateFirst hi with hi | ⟨j, -, rfl⟩
  · exact h i hi b hb
  · exact ha b hb

theorem usable_updateAdmin {c : Configuration} (h : Usable c.interfaces) (name : String)
    (a : AdminState) : Usable (c.update name (·.withAdmin a)).interfaces := by
  intro i hi b hb
  rcases mem_updateFirst hi with hi | ⟨j, hj, rfl⟩
  · exact h i hi b hb
  · exact h j hj b hb

/-- An accepted edit keeps a configuration well-formed. -/
theorem WellFormed.edited {c c' : Configuration} {e : Edit} (hc : c.WellFormed)
    (h : Edited c e c') : c'.WellFormed := by
  have hnames := h.names_eq
  -- Edits of routes keep the interfaces, and edits of an interface keep the names and the routes.
  cases h with
  | @addRoute route ht hk =>
    refine ⟨?_, ?_, hc.usable⟩
    · rw [RoutingTable.keys_add]
      exact List.nodup_append.mpr ⟨hc.keys_nodup, by simp, by
        rintro key hkey _ hr rfl
        rw [List.mem_singleton] at hr
        exact hk (hr ▸ hkey)⟩
    · intro key hkey name hname
      rw [RoutingTable.keys_add] at hkey
      rcases List.mem_append.mp hkey with hkey | hkey
      · exact hc.targets key hkey name hname
      · rw [List.mem_singleton.mp hkey] at hname
        exact ht name hname
  | removeRoute hr =>
    obtain ⟨-, hk⟩ := RoutingTable.keys_remove? hr
    refine ⟨?_, fun key hkey => hc.targets key ?_, hc.usable⟩
    · rw [hk]
      exact hc.keys_nodup.sublist List.erase_sublist
    · rw [hk] at hkey
      exact List.mem_of_mem_erase hkey
  | disableRoute =>
    refine ⟨?_, ?_, hc.usable⟩
    · rw [RoutingTable.keys_disable]
      exact hc.keys_nodup
    · rw [RoutingTable.keys_disable]
      exact hc.targets
  | setAddress hs hp =>
    refine ⟨hc.keys_nodup, hnames ▸ hc.targets, usable_updateAddress hc.usable _ ?_⟩
    intro b hb
    exact Option.some.inj hb ▸ hp
  | deleteAddress =>
    exact ⟨hc.keys_nodup, hnames ▸ hc.targets, usable_updateAddress hc.usable _ nofun⟩
  | disableInterface =>
    exact ⟨hc.keys_nodup, hnames ▸ hc.targets, usable_updateAdmin hc.usable _ _⟩
  | enableInterface =>
    exact ⟨hc.keys_nodup, hnames ▸ hc.targets, usable_updateAdmin hc.usable _ _⟩

theorem wellFormed_without_routes {interfaces : List Interface} (h : Usable interfaces) :
    WellFormed { interfaces := interfaces } where
  keys_nodup := List.nodup_nil
  targets := nofun
  usable := h

theorem wellFormed_cleared (c : Configuration) : c.cleared.WellFormed := by
  refine wellFormed_without_routes fun i hi a ha => ?_
  obtain ⟨j, -, rfl⟩ := List.mem_map.mp hi
  cases ha

end Configuration

namespace Router

/-- The interfaces that links are taken for, with the new links. -/
theorem updateLinks_names (r : Router) (lookup : String → Option Neighbor)
    (selection : Option (List String)) :
    (r.updateLinks lookup selection).committed.names = r.committed.names ∧
      (r.updateLinks lookup selection).staged.names = r.staged.names := by
  simp only [updateLinks, Configuration.names, List.map_map]
  constructor
  all_goals
    refine List.map_congr_left fun i _ => ?_
    dsimp only [Function.comp]
    split <;> rfl

/-- The names of the interfaces, in both copies and after a reset. -/
structure Named (interfaces : List Interface) (r : Router) : Prop where
  initial : r.initial = interfaces
  committed : r.committed.names = interfaces.map (·.name)
  staged : r.staged.names = interfaces.map (·.name)

theorem Change.named {interfaces : List Interface} {r r' : Router} (h : Change r r')
    (hr : r.Named interfaces) : r'.Named interfaces := by
  cases h with
  | none | leave => exact ⟨hr.initial, hr.committed, hr.staged⟩
  | restage => exact ⟨hr.initial, hr.committed, hr.committed⟩
  | edit _ he =>
    have hn := (Configuration.edit_eq_ok_iff.mp he).names_eq
    exact ⟨hr.initial, hr.committed, hn.trans hr.staged⟩
  | clear => exact ⟨hr.initial, hr.committed, (Configuration.names_cleared _).trans hr.staged⟩
  | commit => exact ⟨hr.initial, hr.staged, hr.staged⟩
  | reset => exact ⟨hr.initial, by rw [← hr.initial]; rfl, by rw [← hr.initial]; rfl⟩
  | relink lookup selection =>
    obtain ⟨hc, hs⟩ := updateLinks_names r lookup selection
    exact ⟨hr.initial, hc.trans hr.committed, hs.trans hr.staged⟩

structure WellFormed (r : Router) : Prop where
  initial : Usable r.initial
  committed : r.committed.WellFormed
  staged : r.staged.WellFormed

theorem wellFormed_new {interfaces : List Interface} (h : Usable interfaces) (name : String) :
    (new name interfaces).WellFormed where
  initial := h
  committed := Configuration.wellFormed_without_routes h
  staged := Configuration.wellFormed_without_routes h

/-- Taking links from the neighbours touches no address and no route. -/
theorem wellFormed_updateLinks {r : Router} (h : r.WellFormed)
    (lookup : String → Option Neighbor) (selection : Option (List String)) :
    (r.updateLinks lookup selection).WellFormed := by
  obtain ⟨hc, hs⟩ := updateLinks_names r lookup selection
  have hu : ∀ is : List Interface, Usable is → Usable (is.map fun i =>
      if selection.all (·.contains i.name) then i.relink lookup else i) := by
    intro is his i hi a ha
    obtain ⟨j, hj, rfl⟩ := List.mem_map.mp hi
    refine his j hj a ?_
    split at ha <;> exact ha
  exact ⟨h.initial,
    ⟨h.committed.keys_nodup, hc ▸ h.committed.targets, hu _ h.committed.usable⟩,
    ⟨h.staged.keys_nodup, hs ▸ h.staged.targets, hu _ h.staged.usable⟩⟩

theorem Change.wellFormed {r r' : Router} (h : Change r r') (hr : r.WellFormed) :
    r'.WellFormed := by
  cases h with
  | none | leave => exact ⟨hr.initial, hr.committed, hr.staged⟩
  | restage => exact ⟨hr.initial, hr.committed, hr.committed⟩
  | edit _ he =>
    exact ⟨hr.initial, hr.committed, hr.staged.edited (Configuration.edit_eq_ok_iff.mp he)⟩
  | clear => exact ⟨hr.initial, hr.committed, Configuration.wellFormed_cleared _⟩
  | commit => exact ⟨hr.initial, hr.staged, hr.staged⟩
  | reset => exact wellFormed_new hr.initial r.name
  | relink lookup selection => exact wellFormed_updateLinks hr lookup selection

end Router

theorem ReachableFrom.named {name : String} {interfaces : List Interface} {r : Router}
    (h : ReachableFrom (.new name interfaces) r) : r.Named interfaces :=
  h.preserves Router.Change.named ⟨rfl, rfl, rfl⟩

theorem ReachableFrom.wellFormed {name : String} {interfaces : List Interface} {r : Router}
    (h : ReachableFrom (.new name interfaces) r) (hu : Usable interfaces) : r.WellFormed :=
  h.preserves Router.Change.wellFormed (Router.wellFormed_new hu name)

/-- What holds of the names that a router was built with holds of all names in its committed
configuration, as those of interfaces and as the targets of routes. -/
theorem ReachableFrom.forall_names {P : String → Prop} {name : String}
    {interfaces : List Interface} {r : Router} (h : ReachableFrom (.new name interfaces) r)
    (hu : Usable interfaces) (hP : ∀ i ∈ interfaces, P i.name) :
    (∀ i ∈ r.committed.interfaces, P i.name) ∧
      ∀ e ∈ r.committed.routes.entries, ∀ n, e.target = .interface n → P n := by
  have hnames : ∀ n ∈ r.committed.names, P n := by
    intro n hn
    rw [h.named.committed] at hn
    obtain ⟨i, hi, rfl⟩ := List.mem_map.mp hn
    exact hP i hi
  refine ⟨fun i hi => hnames _ (List.mem_map_of_mem hi), fun e he n ht => hnames n ?_⟩
  exact (h.wellFormed hu).committed.targets e.key (List.mem_map_of_mem he) n ht

end RouterConsole
