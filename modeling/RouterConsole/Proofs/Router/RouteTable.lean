import RouterConsole.Proofs.Router.Links
import RouterConsole.Proofs.ValueText
import RouterConsole.Router.Display

/-!
# The routing table as a stable listing

What the routing table shows is settled by three conditions alone: it holds the rows that were
found, all of them and no others; their networks are in order; and rows to one network stand as
they were found. Two rows that each may come first have the same network, so there is only one
such list, whatever algorithm sorts it. The rows are found in the committed configuration, and no
link is looked at.
-/
namespace RouterConsole

section Sorting

variable {α β : Type}

/-- Sorting keeps the order of items any two of which may stand in either order. -/
theorem filter_mergeSort {le : α → α → Bool}
    (htrans : ∀ a b c, le a b = true → le b c = true → le a c = true)
    (htotal : ∀ a b, (le a b || le b a) = true) {p : α → Bool}
    (hp : ∀ a b, p a = true → p b = true → le a b = true) (l : List α) :
    (l.mergeSort le).filter p = l.filter p := by
  have hordered : (l.filter p).Pairwise fun a b => le a b = true :=
    List.pairwise_filter.mpr (List.pairwise_of_forall hp)
  have hkept := (List.sublist_mergeSort htrans htotal hordered List.filter_sublist).filter p
  rw [List.filter_filter, funext fun a => Bool.and_self (p a)] at hkept
  exact (hkept.eq_of_length ((List.mergeSort_perm l le).filter p).length_eq.symm).symm

/-- Only one order of some items goes by a relation and keeps the items of each key as they are, if
items that may stand in either order have the same key. -/
theorem eq_of_perm_of_filter_eq [DecidableEq β] {R : α → α → Prop} {key : α → β}
    (hkey : ∀ a b, R a b → R b a → key a = key b) {l l' : List α} (hperm : l.Perm l')
    (hl : l.Pairwise R) (hl' : l'.Pairwise R)
    (h : ∀ a ∈ l, l.filter (key · = key a) = l'.filter (key · = key a)) : l = l' := by
  induction l generalizing l' with
  | nil => exact hperm.nil_eq
  | cons a t ih =>
    cases l' with
    | nil => exact hperm.eq_nil
    | cons b t' =>
      -- Each of the two heads is in the other list, there in front or behind the front.
      have hheads : key a = key b := by
        rcases List.mem_cons.mp (hperm.mem_iff.mp List.mem_cons_self) with rfl | ha
        · rfl
        rcases List.mem_cons.mp (hperm.mem_iff.mpr List.mem_cons_self) with rfl | hb
        · rfl
        exact hkey a b (List.rel_of_pairwise_cons hl hb) (List.rel_of_pairwise_cons hl' ha)
      have hfront := h a List.mem_cons_self
      rw [List.filter_cons_of_pos (by simp), List.filter_cons_of_pos (by simp [hheads])] at hfront
      obtain rfl := (List.cons.inj hfront).1
      refine congrArg (a :: ·) (ih hperm.cons_inv hl.of_cons hl'.of_cons fun c hc => ?_)
      have hrest := h c (List.mem_cons_of_mem a hc)
      by_cases hac : key a = key c
      · rw [List.filter_cons_of_pos (by simp [hac]), List.filter_cons_of_pos (by simp [hac])]
          at hrest
        exact (List.cons.inj hrest).2
      · rwa [List.filter_cons_of_neg (by simp [hac]), List.filter_cons_of_neg (by simp [hac])]
          at hrest

end Sorting

namespace RouteRow

/-- Whether a row may come before another: the text of its network's address, compared character by
character, is the smaller one, or it is the same and the prefix is at least as long. -/
def Precedes (a b : RouteRow) : Prop :=
  a.destination.base.text < b.destination.base.text ∨
    a.destination.base.text = b.destination.base.text ∧
      b.destination.length ≤ a.destination.length

instance : DecidableRel Precedes := fun _ _ =>
  inferInstanceAs (Decidable (_ < _ ∨ _ = _ ∧ _ ≤ _))

theorem le_iff {a b : RouteRow} : a.le b = true ↔ a.Precedes b := by
  simp only [le, Precedes, Bool.or_eq_true, Bool.and_eq_true, decide_eq_true_eq, beq_iff_eq]

theorem Precedes.trans {a b c : RouteRow} (h : a.Precedes b) (h' : b.Precedes c) :
    a.Precedes c := by
  rcases h with hlt | ⟨heq, hlen⟩
  · rcases h' with hlt' | ⟨heq', -⟩
    · exact .inl (String.lt_trans hlt hlt')
    · exact .inl (heq' ▸ hlt)
  · rcases h' with hlt' | ⟨heq', hlen'⟩
    · exact .inl (heq ▸ hlt')
    · exact .inr ⟨heq.trans heq', Nat.le_trans hlen' hlen⟩

theorem precedes_total (a b : RouteRow) : a.Precedes b ∨ b.Precedes a := by
  by_cases hab : a.destination.base.text < b.destination.base.text
  · exact .inl (.inl hab)
  by_cases hba : b.destination.base.text < a.destination.base.text
  · exact .inr (.inl hba)
  have heq := String.le_antisymm (String.not_lt.mp hba) (String.not_lt.mp hab)
  rcases Nat.le_total b.destination.length a.destination.length with hlen | hlen
  · exact .inl (.inr ⟨heq, hlen⟩)
  · exact .inr (.inr ⟨heq.symm, hlen⟩)

/-- Rows that may stand in either order lead to the same network. -/
theorem Precedes.destination_eq {a b : RouteRow} (h : a.Precedes b) (h' : b.Precedes a) :
    a.destination = b.destination := by
  rcases h with hlt | ⟨heq, hlen⟩
  · rcases h' with hlt' | ⟨heq', -⟩
    · exact absurd hlt' (String.lt_asymm hlt)
    · exact absurd (heq' ▸ hlt) (String.lt_irrefl _)
  · rcases h' with hlt' | ⟨-, hlen'⟩
    · exact absurd (heq ▸ hlt') (String.lt_irrefl _)
    · rw [← IPv4.Network.containing_base a.destination,
        ← IPv4.Network.containing_base b.destination, IPv4.Address.eq_of_text_eq heq,
        Fin.le_antisymm hlen' hlen]

/-- The rows that were found, as the routing table lists them: all of them, their networks in
order, and rows to one network in the order in which they were found. -/
structure Listing (found rows : List RouteRow) : Prop where
  perm : rows.Perm found
  ordered : rows.Pairwise Precedes
  stable : ∀ a ∈ rows, rows.filter (·.destination = a.destination) =
    found.filter (·.destination = a.destination)

instance (found rows : List RouteRow) : Decidable (Listing found rows) :=
  decidable_of_iff (rows.Perm found ∧ rows.Pairwise Precedes ∧ ∀ a ∈ rows,
      rows.filter (·.destination = a.destination) = found.filter (·.destination = a.destination))
    ⟨fun h => ⟨h.1, h.2.1, h.2.2⟩, fun h => ⟨h.perm, h.ordered, h.stable⟩⟩

theorem listing_mergeSort (found : List RouteRow) : Listing found (found.mergeSort le) := by
  have htrans : ∀ a b c : RouteRow, a.le b = true → b.le c = true → a.le c = true :=
    fun _ _ _ h h' => le_iff.mpr ((le_iff.mp h).trans (le_iff.mp h'))
  have htotal : ∀ a b : RouteRow, (a.le b || b.le a) = true := fun a b =>
    (Bool.or_eq_true _ _).mpr ((precedes_total a b).imp le_iff.mpr le_iff.mpr)
  have hsame : ∀ a b : RouteRow, a.destination = b.destination → a.le b = true := by
    intro a b h
    rw [le_iff, Precedes, h]
    exact .inr ⟨rfl, Nat.le_refl b.destination.length.val⟩
  refine ⟨List.mergeSort_perm found le, ?_, ?_⟩
  · exact (List.pairwise_mergeSort htrans htotal found).imp le_iff.mp
  · intro a _
    refine filter_mergeSort htrans htotal (fun b c hb hc => hsame b c ?_) found
    exact (of_decide_eq_true hb).trans (of_decide_eq_true hc).symm

/-- What was found has one listing. -/
theorem Listing.eq {found rows rows' : List RouteRow} (h : Listing found rows)
    (h' : Listing found rows') : rows = rows' := by
  have hperm := h.perm.trans h'.perm.symm
  have hkey : ∀ a b : RouteRow, a.Precedes b → b.Precedes a → a.destination = b.destination :=
    fun _ _ => Precedes.destination_eq
  refine eq_of_perm_of_filter_eq hkey hperm h.ordered h'.ordered fun a ha => ?_
  exact (h.stable a ha).trans (h'.stable a (hperm.mem_iff.mp ha)).symm

end RouteRow

/-- The row that an interface puts into the table, if it has an address and is administratively
up. -/
def Interface.foundRow? (i : Interface) : Option RouteRow :=
  match i.address, i.status.admin with
  | some a, .up => some (.connected a.network i.name)
  | _, _ => none

theorem Interface.foundRow?_relinkSelected (i : Interface) (lookup : String → Option Neighbor)
    (selection : Option (List String)) :
    (i.relinkSelected lookup selection).foundRow? = i.foundRow? := by
  unfold relinkSelected
  by_cases h : selection.all (·.contains i.name) = true
  · rw [if_pos h]
    rfl
  · rw [if_neg h]

namespace Configuration

/-- The rows of the routing table as they are found: one for each interface that has an address and
is administratively up, in the order of the interfaces, and then one for each static route that is
not switched off, in the order of the table. -/
def foundRows (c : Configuration) : List RouteRow :=
  c.interfaces.filterMap Interface.foundRow? ++
    (c.routes.entries.filter (!·.disabled)).map fun e => .static e.destination e.target e.distance

theorem connectedRows_eq (c : Configuration) :
    c.connectedRows = c.interfaces.filterMap Interface.foundRow? := by
  refine congrArg (List.filterMap · c.interfaces) (funext fun i => ?_)
  rw [Interface.hasConnectedRoute, Interface.network, Interface.foundRow?]
  cases i.address with
  | none => rfl
  | some a => cases i.status.admin <;> rfl

theorem routeRows_eq (c : Configuration) : c.routeRows = c.foundRows.mergeSort RouteRow.le := by
  rw [routeRows, connectedRows_eq]
  rfl

/-- New links find the same rows. -/
theorem foundRows_relinkSelected (c : Configuration) (lookup : String → Option Neighbor)
    (selection : Option (List String)) :
    (c.relinkSelected lookup selection).foundRows = c.foundRows := by
  rw [foundRows, relinkSelected, List.filterMap_map]
  refine congrArg (List.filterMap · c.interfaces ++ _) (funext fun i => ?_)
  exact i.foundRow?_relinkSelected lookup selection

end Configuration

namespace Router

/-- Only a commit or a reset changes the rows that are found. -/
theorem foundRows_after {op : Operation} (hop : op ≠ .commit ∧ op ≠ .reset) (r : Router) :
    (r.after op).committed.foundRows = r.committed.foundRows := by
  cases hpub : op.publishes with
  | false => rw [committed_after hpub]
  | true =>
    cases op with
    | commit => exact absurd rfl hop.1
    | reset => exact absurd rfl hop.2
    | updateLinks lookup selection => exact r.committed.foundRows_relinkSelected lookup selection
    | setMode | forceMode | edit | clear | discard | save => cases hpub

theorem foundRows_run {ops : List Operation} (h : ∀ op ∈ ops, op ≠ .commit ∧ op ≠ .reset)
    (r : Router) : (r.run ops).committed.foundRows = r.committed.foundRows := by
  induction ops generalizing r with
  | nil => rfl
  | cons op ops ih =>
    rw [run_cons, ih (fun o ho => h o (List.mem_cons_of_mem op ho)),
      foundRows_after (h op List.mem_cons_self)]

/-- The routing table of any router. It is the one list that holds the rows found in the committed
configuration, orders them by the text of the network's address and then from the longest prefix to
the shortest, and keeps rows to one network in the order in which they were found. So it stays the
same whatever is staged and whatever links are taken, as long as nothing is committed or reset. -/
theorem routeRows_is_the_listing (r : Router) :
    (∀ rows, r.committed.routeRows = rows ↔ RouteRow.Listing r.committed.foundRows rows) ∧
      ∀ ops : List Operation, (∀ op ∈ ops, op ≠ .commit ∧ op ≠ .reset) →
        (r.run ops).committed.routeRows = r.committed.routeRows := by
  constructor
  · intro rows
    have hlisting := RouteRow.listing_mergeSort r.committed.foundRows
    rw [Configuration.routeRows_eq]
    constructor
    · rintro rfl
      exact hlisting
    · exact hlisting.eq
  · intro ops hops
    rw [Configuration.routeRows_eq, Configuration.routeRows_eq, foundRows_run hops]

/-- Two interfaces in one network and a third that is switched off; two static routes to the same
network, one to a larger network, one to a network that comes first as a number and last as a text,
and one that is switched off. The table stays as it is while an interface is switched off, a route
is removed, all links come up and nothing is committed. -/
theorem routeRows_is_the_listing_of_ties :
    let lan : IPv4.Network := ⟨.ofNat 0x0A000000, 24, by decide⟩
    let wide : IPv4.Network := ⟨.ofNat 0x0A000000, 8, by decide⟩
    let far : IPv4.Network := ⟨.ofNat 0x09000000, 8, by decide⟩
    let port (name : String) (n : Nat) (admin : AdminState) : Interface :=
      { Interface.fresh name ⟨.replicate 6 2⟩ with
        address := some ⟨.ofNat n, 24⟩, status := ⟨admin, .down⟩ }
    let route (network : IPv4.Network) (name : String) : StaticRoute :=
      { destination := network, target := .interface name }
    let start := Router.new "edge" [port "eth1" 0x0A000002 .up, port "eth0" 0x0A000001 .up,
      port "eth2" 0x0A000003 .down]
    let r := start.run [.setMode .configuration, .edit (.addRoute (route far "eth0")),
      .edit (.addRoute (route wide "eth0")), .edit (.addRoute (route lan "eth1")),
      .edit (.addRoute (route lan "eth0")), .edit (.addRoute (route wide "eth1")),
      .edit (.disableRoute (route wide "eth1")), .commit]
    let peer : Neighbor := .peer { kind := .host, name := "eth0", mac := ⟨.replicate 6 4⟩ }
    let staging : List Operation := [.edit (.disableInterface "eth0"),
      .updateLinks (fun _ => some peer) none, .edit (.removeRoute (route far "eth0"))]
    let rows : List RouteRow :=
      [.connected lan "eth1", .connected lan "eth0", .static lan (.interface "eth1") .default,
        .static lan (.interface "eth0") .default, .static wide (.interface "eth0") .default,
        .static far (.interface "eth0") .default]
    r.committed.routeRows = rows ∧ (r.run staging).committed.routeRows = rows ∧
      (r.run staging).staged.foundRows.length = 4 ∧
      (r.run staging).committed.interfaces.map (·.status.link) = [.up, .up, .up] := by
  intro lan wide far port route start r peer staging rows
  obtain ⟨hlisting, hkept⟩ := routeRows_is_the_listing r
  have hrows : r.committed.routeRows = rows := (hlisting rows).mpr (by decide +kernel)
  have hstaging : ∀ op ∈ staging, op ≠ .commit ∧ op ≠ .reset := by
    simp only [staging, List.forall_mem_cons, ne_eq, reduceCtorEq, not_false_eq_true, and_self,
      List.not_mem_nil, false_implies, implies_true]
  exact ⟨hrows, (hkept staging hstaging).trans hrows, by decide +kernel, by decide +kernel⟩

end Router

end RouterConsole
