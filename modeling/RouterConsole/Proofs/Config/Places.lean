import RouterConsole.Proofs.Config.Notation

/-!
# Where tokens stand

Tokens carry their places for messages alone: the grammar looks at their words. So when the tokens
of a path are moved, what the path asks for and whether it is refused stay the same, and the places
that the directive or the fault shows move along.
-/
namespace RouterConsole.Config

variable (line column : Nat → Nat)

/-- The word of a token at another place. -/
def Token.moved (t : Token) : Token :=
  { t with line := line t.line, column := column t.column }

/-- A directive with its token moved. -/
def Directive.moved : Directive → Directive
  | .address i a t => .address i a (t.moved line column)
  | .disable i t => .disable i (t.moved line column)
  | .route r d t => .route r d (t.moved line column)

/-- A fault with the line moved that its reason names. -/
def Fault.moved : Fault → Fault
  | .unexpectedEnd n => .unexpectedEnd (line n)
  | f => f

def Error.moved (e : Error) : Error :=
  ⟨e.fault.moved line, e.token.map (·.moved line column)⟩

/-- A result with everything in it moved. -/
def movedResult {α : Type} (move : α → α) : Except Error α → Except Error α
  | .ok a => .ok (move a)
  | .error e => .error (e.moved line column)

@[simp] theorem Token.value_moved (t : Token) : (t.moved line column).value = t.value := rfl

section Results

variable {line column} {α β : Type} {move : α → α} {move' : β → β}

theorem bind_moved {x x' : Except Error α} {f f' : α → Except Error β}
    (hx : x' = movedResult line column move x)
    (hf : ∀ a, f' (move a) = movedResult line column move' (f a)) :
    x' >>= f' = movedResult line column move' (x >>= f) := by
  subst hx
  cases x with
  | error e => rfl
  | ok a => exact hf a

theorem ite_moved_of_iff {p q : Prop} [Decidable p] [Decidable q] (hpq : q ↔ p)
    {x x' y y' : Except Error α} (hx : x' = movedResult line column move x)
    (hy : y' = movedResult line column move y) :
    (if q then x' else y') = movedResult line column move (if p then x else y) := by
  by_cases hp : p
  · rw [if_pos hp, if_pos (hpq.mpr hp)]
    exact hx
  · rw [if_neg hp, if_neg (mt hpq.mp hp)]
    exact hy

theorem ite_moved {p : Prop} [Decidable p] {x x' y y' : Except Error α}
    (hx : x' = movedResult line column move x) (hy : y' = movedResult line column move y) :
    (if p then x' else y') = movedResult line column move (if p then x else y) :=
  ite_moved_of_iff Iff.rfl hx hy

theorem mapM_moved {γ δ : Type} {place : γ → δ} {f : γ → Except Error α} {f' : δ → Except Error α}
    (h : ∀ a, f' (place a) = movedResult line column move (f a)) (l : List γ) :
    (l.map place).mapM f' = movedResult line column (List.map move) (l.mapM f) := by
  induction l with
  | nil => rfl
  | cons a l ih =>
    rw [List.map_cons, List.mapM_cons, List.mapM_cons]
    exact bind_moved (h a) fun _ => bind_moved ih fun _ => rfl

end Results

/-- A token and the tokens after it, moved. -/
def movedRest (p : Token × List Token) : Token × List Token :=
  (p.1.moved line column, p.2.map (·.moved line column))

section Grammar

variable {names : List String}

theorem nextToken_moved (last : Token) (ts : List Token) :
    nextToken (last.moved line column) (ts.map (·.moved line column)) =
      movedResult line column (movedRest line column) (nextToken last ts) := by
  cases ts <;> rfl

theorem expectWord_moved (keyword : String) (last : Token) (ts : List Token) :
    expectWord keyword (last.moved line column) (ts.map (·.moved line column)) =
      movedResult line column (movedRest line column) (expectWord keyword last ts) := by
  refine bind_moved (nextToken_moved line column last ts) ?_
  rintro ⟨t, rest⟩
  exact ite_moved rfl rfl

theorem expectInterface_moved (last : Token) (ts : List Token) :
    expectInterface names (last.moved line column) (ts.map (·.moved line column)) =
      movedResult line column (movedRest line column) (expectInterface names last ts) := by
  refine bind_moved (nextToken_moved line column last ts) ?_
  rintro ⟨t, rest⟩
  exact ite_moved rfl rfl

theorem expectEnd_moved (ts : List Token) :
    expectEnd (ts.map (·.moved line column)) = movedResult line column id (expectEnd ts) := by
  cases ts <;> rfl

theorem readValue_moved {α : Type} (read : String → Except ValueFault α)
    {fault : String → ValueFault → Fault} (hf : ∀ v f, (fault v f).moved line = fault v f)
    (t : Token) :
    readValue read fault (t.moved line column) =
      movedResult line column id (readValue read fault t) := by
  unfold readValue
  rw [Token.value_moved]
  cases read t.value with
  | ok a => rfl
  | error f =>
    have hfault := (hf t.value f).symm
    exact congrArg (fun g => Except.error (g.at (t.moved line column))) hfault

theorem interfacePath_moved (head : Token) (ts : List Token) :
    interfacePath names (head.moved line column) (ts.map (·.moved line column)) =
      movedResult line column (Option.map (·.moved line column)) (interfacePath names head ts) := by
  refine bind_moved (expectWord_moved line column "ethernet" head ts) ?_
  rintro ⟨ethernet, ts⟩
  refine bind_moved (expectInterface_moved line column ethernet ts) ?_
  rintro ⟨name, ts⟩
  refine bind_moved (nextToken_moved line column name ts) ?_
  rintro ⟨option, ts⟩
  refine ite_moved ?_ (ite_moved ?_ rfl)
  · refine bind_moved (nextToken_moved line column option ts) ?_
    rintro ⟨value, ts⟩
    refine bind_moved (expectEnd_moved line column ts) ?_
    rintro ⟨⟩
    refine ite_moved rfl ?_
    exact bind_moved
      (readValue_moved line column Value.interfaceAddress (fun _ _ => rfl) value) fun _ => rfl
  · exact bind_moved (expectEnd_moved line column ts) fun _ => rfl

theorem routeOptions_moved (distance : Distance) (disable : Bool) (ts : List Token) :
    routeOptions distance disable (ts.map (·.moved line column)) =
      movedResult line column id (routeOptions distance disable ts) := by
  induction distance, disable, ts using routeOptions.induct with
  | case1 => rfl
  | case2 distance disable t ht =>
    rw [List.map_cons, routeOptions_of_end ht]
    exact routeOptions_of_end (t := t.moved line column) ht distance disable
  | case3 distance disable t ht v rest ih =>
    rw [routeOptions_of_eq ht, List.map_cons, List.map_cons,
      routeOptions_of_eq (t := t.moved line column) ht]
    exact bind_moved (readValue_moved line column Value.distance (fun _ _ => rfl) v) ih
  | case4 distance disable t ts ht hd ih =>
    rw [List.map_cons, routeOptions_of_ne ht, routeOptions_of_ne (t := t.moved line column) ht,
      if_pos hd]
    exact (if_pos hd).trans ih
  | case5 distance disable t ts ht hd =>
    rw [List.map_cons, routeOptions_of_ne ht, routeOptions_of_ne (t := t.moved line column) ht,
      if_neg hd]
    exact if_neg hd

theorem routeTarget_moved (last : Token) (ts : List Token) :
    routeTarget names (last.moved line column) (ts.map (·.moved line column)) =
      movedResult line column (fun p => (p.1, p.2.map (·.moved line column)))
        (routeTarget names last ts) := by
  refine bind_moved (nextToken_moved line column last ts) ?_
  rintro ⟨kind, ts⟩
  refine ite_moved ?_ (ite_moved ?_ rfl)
  · refine bind_moved (nextToken_moved line column kind ts) ?_
    rintro ⟨value, ts⟩
    exact bind_moved (readValue_moved line column Value.gateway (fun _ _ => rfl) value) fun _ => rfl
  · exact bind_moved (expectInterface_moved line column kind ts) fun _ => rfl

theorem routePath_moved (head : Token) (ts : List Token) :
    routePath names (head.moved line column) (ts.map (·.moved line column)) =
      movedResult line column (·.moved line column) (routePath names head ts) := by
  refine bind_moved (expectWord_moved line column "static" head ts) ?_
  rintro ⟨static, ts⟩
  refine bind_moved (expectWord_moved line column "route" static ts) ?_
  rintro ⟨route, ts⟩
  refine bind_moved (nextToken_moved line column route ts) ?_
  rintro ⟨value, ts⟩
  refine bind_moved (readValue_moved line column Value.network (fun _ _ => rfl) value) ?_
  intro destination
  refine bind_moved (routeTarget_moved line column value ts) ?_
  rintro ⟨target, ts⟩
  exact bind_moved (routeOptions_moved line column .default false ts) fun _ => rfl

/-- A path whose tokens are moved asks for the same, or is refused for the same reason. -/
theorem interpret_moved (names : List String) (path : List Token) :
    interpret names (path.map (·.moved line column)) =
      movedResult line column (Option.map (·.moved line column)) (interpret names path) := by
  cases path with
  | nil => rfl
  | cons head ts =>
    refine ite_moved (interfacePath_moved line column head ts) (ite_moved ?_ rfl)
    rw [routePath_moved]
    cases routePath names head ts <;> rfl

end Grammar

/-! ## Readings -/

/-- The directives of a reading. A fault in a path comes before the fault that ended the reading. -/
def PathReading.directives (names : List String) (r : PathReading) :
    Except Error (List Directive) :=
  match r.paths.mapM (interpret names) with
  | .error e => .error e
  | .ok ds =>
    match r.fault with
    | some e => .error e
    | none => .ok (ds.filterMap id)

theorem parse_eq (format : Format) (names : List String) (text : String) :
    parse format names text = (readPaths format text).directives names := rfl

/-- A reading with all its tokens moved. -/
def PathReading.moved (r : PathReading) : PathReading :=
  ⟨r.paths.map (List.map (·.moved line column)), r.fault.map (·.moved line column)⟩

/-- A reading that stands elsewhere has the same directives there, or the same fault. -/
theorem directives_moved (names : List String) (r : PathReading) :
    (r.moved line column).directives names =
      movedResult line column (List.map (·.moved line column)) (r.directives names) := by
  have hpaths := mapM_moved (interpret_moved line column names) r.paths
  unfold PathReading.directives
  rw [PathReading.moved, hpaths]
  cases r.paths.mapM (interpret names) with
  | error e => rfl
  | ok ds =>
    cases r.fault with
    | some e => rfl
    | none =>
      refine congrArg Except.ok ?_
      rw [List.filterMap_map, List.map_filterMap]
      rfl

end RouterConsole.Config
