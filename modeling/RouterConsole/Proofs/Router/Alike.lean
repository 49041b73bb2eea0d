import RouterConsole.Proofs.Router.EditRules

/-!
# Configurations that edits cannot tell apart

Two configurations are alike if they set the same under every name and have the same routes; order
and the other fields of the interfaces may differ. Alike configurations refuse the same edits for
the same reasons, and accepted edits keep them alike.
-/
namespace RouterConsole.Configuration

/-- The same settings under every name and the same routes. -/
structure Alike (c d : Configuration) : Prop where
  settings : ∀ name, c.settings name = d.settings name
  routes : c.routes = d.routes

namespace Alike

variable {c d : Configuration}

theorem symm (h : Alike c d) : Alike d c := ⟨fun name => (h.settings name).symm, h.routes.symm⟩

theorem mem_names (h : Alike c d) (name : String) : name ∈ c.names ↔ name ∈ d.names := by
  have hn : c.settings name = none ↔ name ∉ c.names := settings_eq_none_iff
  rw [h.settings name, settings_eq_none_iff] at hn
  exact Decidable.not_iff_not.mp hn.symm

theorem update_address (h : Alike c d) (name : String) (a : Option IPv4.InterfaceAddress) :
    Alike (c.update name (·.withAddress a)) (d.update name (·.withAddress a)) where
  settings other := by
    rw [settings_update_address, settings_update_address, h.settings name, h.settings other]
  routes := h.routes

theorem update_admin (h : Alike c d) (name : String) (a : AdminState) :
    Alike (c.update name (·.withAdmin a)) (d.update name (·.withAdmin a)) where
  settings other := by
    rw [settings_update_admin, settings_update_admin, h.settings name, h.settings other]
  routes := h.routes

theorem with_routes (h : Alike c d) (routes : RoutingTable) :
    Alike { c with routes := routes } { d with routes := routes } := ⟨h.settings, rfl⟩

/-- An edit that one of two alike configurations accepts is accepted by the other, and the results
are alike. -/
theorem edited (h : Alike c d) {e : Edit} {c' : Configuration} (he : Edited c e c') :
    ∃ d', Edited d e d' ∧ Alike c' d' := by
  cases he with
  | addRoute ht hk =>
    rw [h.routes] at hk ⊢
    exact ⟨_, .addRoute (fun name hr => (h.mem_names name).mp (ht name hr)) hk, h.with_routes _⟩
  | removeRoute hr =>
    rw [h.routes] at hr
    exact ⟨_, .removeRoute hr, h.with_routes _⟩
  | disableRoute hf hd =>
    rw [h.routes] at hf ⊢
    exact ⟨_, .disableRoute hf hd, h.with_routes _⟩
  | setAddress hs hp ho => exact ⟨_, .setAddress (h.settings _ ▸ hs) hp ho, h.update_address _ _⟩
  | deleteAddress hs ho => exact ⟨_, .deleteAddress (h.settings _ ▸ hs) ho, h.update_address _ _⟩
  | disableInterface hs => exact ⟨_, .disableInterface (h.settings _ ▸ hs), h.update_admin _ _⟩
  | enableInterface hs => exact ⟨_, .enableInterface (h.settings _ ▸ hs), h.update_admin _ _⟩

/-- An edit that one of two alike configurations refuses is refused by the other for the same
reason. -/
theorem refused (h : Alike c d) {e : Edit} {err : RouterError} (he : Refused c e err) :
    Refused d e err := by
  cases he with
  | noInterface hi hn => exact .noInterface hi fun hd => hn ((h.mem_names _).mpr hd)
  | noTarget ht hn => exact .noTarget ht fun hd => hn ((h.mem_names _).mpr hd)
  | routeThere ht hk =>
    rw [h.routes] at hk
    exact .routeThere (fun name hr => (h.mem_names name).mp (ht name hr)) hk
  | noRouteToDelete hk => exact .noRouteToDelete (h.routes ▸ hk)
  | noSuchRoute hk => exact .noSuchRoute (h.routes ▸ hk)
  | routeDisabled hf hd => exact .routeDisabled (h.routes ▸ hf) hd
  | unusable hs hp => exact .unusable (h.settings _ ▸ hs) hp
  | addressThere hs hp => exact .addressThere (h.settings _ ▸ hs) hp
  | noAddressToDelete hs ho => exact .noAddressToDelete (h.settings _ ▸ hs) ho
  | alreadyDisabled hs => exact .alreadyDisabled (h.settings _ ▸ hs)
  | notDisabled hs => exact .notDisabled (h.settings _ ▸ hs)

end Alike

/-- Of a wiped configuration only the names remain. -/
theorem alike_cleared {c d : Configuration} (h : ∀ name, name ∈ c.names ↔ name ∈ d.names) :
    Alike c.cleared d.cleared where
  settings name := by
    rw [settings_cleared, settings_cleared]
    simp only [h name]
  routes := rfl

end RouterConsole.Configuration
