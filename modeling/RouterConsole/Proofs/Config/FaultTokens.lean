import RouterConsole.Proofs.Config.Grammar

/-!
# The tokens of faults

A path that is not of the grammar is refused at one of its own tokens, also where the path ends too
early, and a directive stands for a token of its path. Both are said with a property of tokens in
the place of the path, so that the property can be chosen later.
-/
namespace RouterConsole.Config

/-- The error was noticed at a token of which `P` holds. -/
def Error.NoticedAt (P : Token → Prop) (e : Error) : Prop := ∃ t, e.token = some t ∧ P t

/-- The reading succeeds, or is refused at a token of which `P` holds. -/
def FailsAt {α : Type} (P : Token → Prop) (x : Except Error α) : Prop :=
  ∀ e, x = .error e → e.NoticedAt P

variable {P : Token → Prop}

theorem noticedAt_at (f : Fault) {t : Token} (h : P t) : (f.at t).NoticedAt P := ⟨t, rfl, h⟩

namespace FailsAt

variable {α β : Type} {x : Except Error α}

theorem ok (a : α) : FailsAt P (.ok a : Except Error α) := nofun

theorem error {e : Error} (h : e.NoticedAt P) : FailsAt P (.error e : Except Error α) := by
  intro e' he
  obtain rfl := Except.error.inj he
  exact h

theorem bind {f : α → Except Error β} (hx : FailsAt P x)
    (hf : ∀ a, x = .ok a → FailsAt P (f a)) : FailsAt P (x >>= f) := by
  cases x with
  | error e => exact .error (hx e rfl)
  | ok a => exact hf a rfl

theorem bind_of_ends {Q : α → Prop} {f : α → Except Error β} (hx : FailsAt P x) (hends : Ends Q x)
    (hf : ∀ a, Q a → FailsAt P (f a)) : FailsAt P (x >>= f) :=
  hx.bind fun a ha => hf a (hends.of_ok ha)

theorem map {f : α → β} (hx : FailsAt P x) : FailsAt P (f <$> x) := by
  cases x with
  | error e => exact .error (hx e rfl)
  | ok a => exact .ok (f a)

theorem mapM {f : α → Except Error β} {l : List α} (h : ∀ a ∈ l, FailsAt P (f a)) :
    FailsAt P (l.mapM f) := by
  induction l with
  | nil => exact .ok []
  | cons a l ih =>
    obtain ⟨ha, hl⟩ := List.forall_mem_cons.mp h
    rw [List.mapM_cons]
    exact ha.bind fun b _ => (ih hl).map

end FailsAt

/-! ## Paths -/

section Path

variable {names : List String} {last head : Token} {ts : List Token}

theorem nextToken_failsAt (hlast : P last) (ts : List Token) : FailsAt P (nextToken last ts) := by
  cases ts with
  | nil => exact .error (noticedAt_at _ hlast)
  | cons t ts => exact .ok (t, ts)

theorem expectWord_failsAt (h : ∀ t ∈ last :: ts, P t) (keyword : String) :
    FailsAt P (expectWord keyword last ts) := by
  obtain ⟨hlast, hts⟩ := List.forall_mem_cons.mp h
  refine (nextToken_failsAt hlast ts).bind_of_ends (nextToken_ends last ts) ?_
  rintro ⟨t, rest⟩ rfl
  dsimp only
  split
  · exact .ok _
  · exact .error (noticedAt_at _ (hts t List.mem_cons_self))

theorem expectInterface_failsAt (h : ∀ t ∈ last :: ts, P t) :
    FailsAt P (expectInterface names last ts) := by
  obtain ⟨hlast, hts⟩ := List.forall_mem_cons.mp h
  refine (nextToken_failsAt hlast ts).bind_of_ends (nextToken_ends last ts) ?_
  rintro ⟨t, rest⟩ rfl
  dsimp only
  split
  · exact .ok _
  · exact .error (noticedAt_at _ (hts t List.mem_cons_self))

theorem expectEnd_failsAt (h : ∀ t ∈ ts, P t) : FailsAt P (expectEnd ts) := by
  cases ts with
  | nil => exact .ok ()
  | cons t ts => exact .error (noticedAt_at _ (h t List.mem_cons_self))

theorem readValue_failsAt {α : Type} (read : String → Except ValueFault α)
    (fault : String → ValueFault → Fault) {t : Token} (h : P t) :
    FailsAt P (readValue read fault t) := by
  unfold readValue
  cases read t.value with
  | error f => exact .error (noticedAt_at _ h)
  | ok a => exact .ok a

theorem interfacePath_failsAt (h : ∀ t ∈ head :: ts, P t) :
    FailsAt P (interfacePath names head ts) := by
  -- Every step takes the first token of what is left and hands the rest on, so `h` is taken apart
  -- token by token; what the steps check besides is of no account.
  unfold interfacePath
  refine (expectWord_failsAt h "ethernet").bind_of_ends (expectWord_ends "ethernet" head ts) ?_
  rintro ⟨ethernet, ts⟩ ⟨-, rfl⟩
  obtain ⟨-, h⟩ := List.forall_mem_cons.mp h
  refine (expectInterface_failsAt h).bind_of_ends (expectInterface_ends names ethernet ts) ?_
  rintro ⟨name, ts⟩ ⟨-, rfl⟩
  obtain ⟨-, h⟩ := List.forall_mem_cons.mp h
  refine (nextToken_failsAt (h name List.mem_cons_self) ts).bind_of_ends (nextToken_ends name ts) ?_
  rintro ⟨option, ts⟩ rfl
  obtain ⟨-, h⟩ := List.forall_mem_cons.mp h
  obtain ⟨hoption, hrest⟩ := List.forall_mem_cons.mp h
  dsimp only
  split
  · refine (nextToken_failsAt hoption ts).bind_of_ends (nextToken_ends option ts) ?_
    rintro ⟨value, ts⟩ rfl
    obtain ⟨hvalue, hrest⟩ := List.forall_mem_cons.mp hrest
    refine (expectEnd_failsAt hrest).bind_of_ends (expectEnd_ends ts) ?_
    rintro ⟨⟩ rfl
    dsimp only
    split
    · exact .ok none
    · exact (readValue_failsAt _ _ hvalue).map
  · split
    · exact (expectEnd_failsAt hrest).map
    · exact .error (noticedAt_at _ hoption)

theorem routeOptions_failsAt (h : ∀ t ∈ ts, P t) (distance : Distance) (disable : Bool) :
    FailsAt P (routeOptions distance disable ts) := by
  induction distance, disable, ts using routeOptions.induct with
  | case1 distance disable => exact .ok _
  | case2 distance disable t ht =>
    rw [routeOptions_of_end ht]
    exact .error (noticedAt_at _ (h t List.mem_cons_self))
  | case3 distance disable t ht v rest ih =>
    obtain ⟨-, h⟩ := List.forall_mem_cons.mp h
    obtain ⟨hv, hrest⟩ := List.forall_mem_cons.mp h
    rw [routeOptions_of_eq ht]
    exact (readValue_failsAt _ _ hv).bind_of_ends (readValue_ends _ (fun _ _ => by trivial) v)
      fun d _ => ih d hrest
  | case4 distance disable t ts ht hd ih =>
    rw [routeOptions_of_ne ht, if_pos hd]
    exact ih (List.forall_mem_cons.mp h).2
  | case5 distance disable t ts ht hd =>
    rw [routeOptions_of_ne ht, if_neg hd]
    exact .error (noticedAt_at _ (h t List.mem_cons_self))

theorem routeTarget_failsAt (h : ∀ t ∈ last :: ts, P t) :
    FailsAt P (routeTarget names last ts) := by
  unfold routeTarget
  refine (nextToken_failsAt (h last List.mem_cons_self) ts).bind_of_ends (nextToken_ends last ts) ?_
  rintro ⟨kind, ts⟩ rfl
  obtain ⟨-, h⟩ := List.forall_mem_cons.mp h
  obtain ⟨hkind, hrest⟩ := List.forall_mem_cons.mp h
  dsimp only
  split
  · refine (nextToken_failsAt hkind ts).bind_of_ends (nextToken_ends kind ts) ?_
    rintro ⟨value, ts⟩ rfl
    exact (readValue_failsAt _ _ (hrest value List.mem_cons_self)).map
  · split
    · exact (expectInterface_failsAt h).map
    · exact .error (noticedAt_at _ hkind)

theorem routePath_failsAt (h : ∀ t ∈ head :: ts, P t) : FailsAt P (routePath names head ts) := by
  unfold routePath
  refine (expectWord_failsAt h "static").bind_of_ends (expectWord_ends "static" head ts) ?_
  rintro ⟨static, ts⟩ ⟨-, rfl⟩
  obtain ⟨-, h⟩ := List.forall_mem_cons.mp h
  refine (expectWord_failsAt h "route").bind_of_ends (expectWord_ends "route" static ts) ?_
  rintro ⟨route, ts⟩ ⟨-, rfl⟩
  obtain ⟨-, h⟩ := List.forall_mem_cons.mp h
  refine (nextToken_failsAt (h route List.mem_cons_self) ts).bind_of_ends
    (nextToken_ends route ts) ?_
  rintro ⟨value, ts⟩ rfl
  obtain ⟨-, h⟩ := List.forall_mem_cons.mp h
  refine (readValue_failsAt _ _ (h value List.mem_cons_self)).bind_of_ends
    (readValue_ends Value.network (fun _ _ => by trivial) value) fun destination _ => ?_
  refine (routeTarget_failsAt h).bind_of_ends (routeTarget_ends names value ts) ?_
  rintro ⟨target, rest⟩ ⟨words, rfl, -⟩
  have hrest : ∀ t ∈ rest, P t := fun t ht =>
    h t (List.mem_cons_of_mem value (List.mem_append_right words ht))
  exact (routeOptions_failsAt hrest .default false).map

/-- A path with a token on it is refused, if it is, at a token of its own. -/
theorem interpret_failsAt {path : List Token} (hne : path ≠ []) (h : ∀ t ∈ path, P t) :
    FailsAt P (interpret names path) := by
  cases path with
  | nil => exact absurd rfl hne
  | cons head ts =>
    rw [interpret]
    split
    · exact interfacePath_failsAt h
    · split
      · exact (routePath_failsAt h).map
      · exact .error (noticedAt_at _ (h head List.mem_cons_self))

theorem PathAsks.token_mem {path : List Token} {d : Directive}
    (h : PathAsks names path (some d)) : d.token ∈ path := by
  cases h with
  | address | disable | route => exact List.mem_append_right _ List.mem_cons_self

end Path

end RouterConsole.Config
