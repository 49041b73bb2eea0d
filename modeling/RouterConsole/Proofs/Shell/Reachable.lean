import RouterConsole.Proofs.Router.Frame
import RouterConsole.Proofs.Router.WellFormed
import RouterConsole.Proofs.Shell.Execution
import RouterConsole.Proofs.ValueText

/-!
# Routers that an operator can leave behind

Operations, loads and command lines, in any order and each succeeding or not, lead to no router
that operations alone do not lead to. So every invariant of the operations holds at the prompt; the
last theorem puts them together.
-/
namespace RouterConsole.Shell

/-- What a router can become by operations, loads and command lines, each succeeding or not. The
files may be others at every line. -/
inductive Reaches (start : Router) : Router → Prop
  | refl : Reaches start start
  | operation {r : Router} (op : Operation) : Reaches start r → Reaches start (r.after op)
  | load {r : Router} (text : String) (format? : Option Config.Format) : Reaches start r →
      Reaches start (Config.load r text format?).router
  | line {r : Router} (files : Storage.Files) (line : String) : Reaches start r →
      Reaches start (dispatch files r line).router

namespace Reaches

variable {start r : Router} {name : String} {interfaces : List Interface}

theorem leadsTo (h : Reaches start r) : start.LeadsTo r := by
  induction h with
  | refl => exact .refl start
  | operation op _ ih => exact ih.trans (Router.leadsTo_after _ op)
  | load text format? _ ih => exact ih.trans (Config.leadsTo_load _ text format?)
  | line files line _ ih => exact ih.trans (leadsTo_dispatch files _ line)

/-- Command lines lead nowhere else than operations and loads do. -/
theorem reachableFrom (h : Reaches start r) : ReachableFrom start r := by
  obtain ⟨ops, rfl⟩ := h.leadsTo
  exact ReachableFrom.refl.run ops

theorem synced (h : Reaches (.new name interfaces) r) : r.Synced := h.reachableFrom.synced

theorem framed (h : Reaches (.new name interfaces) r) : r.Framed interfaces :=
  h.leadsTo.preserves Router.Change.framed (Router.framed_new name interfaces)

theorem name_eq (h : Reaches (.new name interfaces) r) : r.name = name :=
  h.leadsTo.preserves (P := (·.name = name)) (fun hchange hr => hchange.name_eq.trans hr) rfl

theorem run (h : Reaches start r) (ops : List Operation) : Reaches start (r.run ops) := by
  induction ops generalizing r with
  | nil => exact h
  | cons op ops ih => exact ih (h.operation op)

/-- The checked part of a route: where it leads, how far, and that it could be written down and
built again. -/
theorem route_sound {c : Configuration} (hc : c.WellFormed) {e : StaticRoute}
    (he : e ∈ c.routes.entries) :
    (∀ n, e.target = .interface n → n ∈ c.names) ∧
      e.target.gateway?.isSome = e.target.interface?.isNone ∧
      (1 ≤ e.distance.toNat ∧ e.distance.toNat ≤ 255) ∧
      e.destination.base.toNat % IPv4.blockSize e.destination.length = 0 ∧
      e.description.build = .ok e := by
  refine ⟨fun n ht => ?_, ?_, ?_, e.destination.aligned, e.build_description⟩
  · exact hc.targets e.key (List.mem_map_of_mem he) n ht
  · cases e.target <;> rfl
  · exact ⟨e.distance.one_le, e.distance.le_255⟩

/-- What holds of both copies of the configuration, whatever operations, loads and command lines
came before. No two routes have the same identity, switched off or not; every route has one target,
which exists if it is an interface, a distance in range and a destination without host bits, so
that it passes the checks that routes are built with; and no interface has the first or the last
address of its network, except where the prefix leaves no room for these. Place by place, the
interfaces of both copies are those that the router was built with in all but address,
administrative state and link, and the links of the two copies are the same. -/
theorem copies_wellFormed (h : Reaches (.new name interfaces) r)
    (hu : ∀ i ∈ interfaces, ∀ a, i.address = some a → UsableAddress a) :
    (∀ c, c = r.committed ∨ c = r.staged →
      c.routes.keys.Nodup ∧
        (∀ e ∈ c.routes.entries,
          (∀ n, e.target = .interface n → n ∈ c.names) ∧
            e.target.gateway?.isSome = e.target.interface?.isNone ∧
            (1 ≤ e.distance.toNat ∧ e.distance.toNat ≤ 255) ∧
            e.destination.base.toNat % IPv4.blockSize e.destination.length = 0 ∧
            e.description.build = .ok e) ∧
        (∀ i ∈ c.interfaces, ∀ a, i.address = some a → UsableAddress a) ∧
        c.interfaces.map Interface.hardware = interfaces.map Interface.hardware) ∧
      r.staged.interfaces.map (·.status.link) = r.committed.interfaces.map (·.status.link) := by
  have hw := h.reachableFrom.wellFormed (usable_iff.mpr hu)
  have hf := h.framed
  have hstaged : r.staged.interfaces.map Interface.hardware =
      r.committed.interfaces.map Interface.hardware :=
    Configuration.map_eq_of_cleared_eq (fun _ => rfl) hf.copies
  have hlinks : r.staged.interfaces.map (·.status.link) =
      r.committed.interfaces.map (·.status.link) :=
    Configuration.map_eq_of_cleared_eq (fun _ => rfl) hf.copies
  have hboth : ∀ c, c = r.committed ∨ c = r.staged →
      c.WellFormed ∧ c.interfaces.map Interface.hardware = interfaces.map Interface.hardware := by
    rintro c (rfl | rfl)
    · exact ⟨hw.committed, hf.hardware⟩
    · exact ⟨hw.staged, hstaged.trans hf.hardware⟩
  refine ⟨fun c hc => ?_, hlinks⟩
  obtain ⟨hwell, hhardware⟩ := hboth c hc
  exact ⟨hwell.keys_nodup, fun e he => route_sound hwell he, usable_iff.mp hwell.usable, hhardware⟩

/-- A router with the first address of a /31 network and a route that is switched off and waits for
a commit, after a line that commits it and one that lists it again, with host bits: it has the
route once, in both copies. -/
theorem copies_wellFormed_after_lines :
    let interfaces : List Interface :=
      [{ Interface.fresh "eth0" ⟨.replicate 6 2⟩ with address := some ⟨.ofNat 0x0A000000, 31⟩ },
        .fresh "eth1" ⟨.replicate 6 4⟩]
    let files : Storage.Files := fun _ => .missing
    let route : StaticRoute :=
      { destination := ⟨.ofNat 0x0A010000, 16, by decide⟩, target := .interface "eth1" }
    let edited := (Router.new "edge" interfaces).run [.setMode .configuration,
      .edit (.addRoute route), .edit (.disableRoute route)]
    let committed := (dispatch files edited "commit").router
    let again := "set protocols static route 10.1.0.9/16 interface eth1"
    let r := (dispatch files committed again).router
    r.staged.routes.entries = [{ route with disabled := true }] ∧ r.staged.routes.keys.Nodup ∧
      r.committed.routes.keys.Nodup ∧ "eth1" ∈ r.staged.names ∧
      r.staged.interfaces.map Interface.hardware = interfaces.map Interface.hardware := by
  intro interfaces files route edited committed again r
  have hedited : Reaches (.new "edge" interfaces) edited := Reaches.refl.run _
  have hr : Reaches (.new "edge" interfaces) r := (hedited.line files _).line files _
  have hu : ∀ i ∈ interfaces, ∀ a, i.address = some a → UsableAddress a := by
    simp only [interfaces, List.forall_mem_cons]
    refine ⟨?_, nofun, nofun⟩
    rintro a ⟨⟩ hl
    exact absurd hl (by decide)
  have hentries : r.staged.routes.entries = [{ route with disabled := true }] := by decide +kernel
  obtain ⟨hboth, -⟩ := copies_wellFormed hr hu
  obtain ⟨hcommitted, -⟩ := hboth r.committed (.inl rfl)
  obtain ⟨hnodup, hroutes, -, hhardware⟩ := hboth r.staged (.inr rfl)
  obtain ⟨htarget, -⟩ := hroutes _ (hentries ▸ List.mem_cons_self)
  exact ⟨hentries, hnodup, hcommitted, htarget "eth1" rfl, hhardware⟩

end Reaches

end RouterConsole.Shell
