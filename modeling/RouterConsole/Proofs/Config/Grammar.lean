import RouterConsole.Proofs.Config.Paths

/-!
# What the grammar makes of a path

Every path with a token on it is read as what it asks for, or is refused at one of its tokens
(`interpret_ends`). What it asks for is about interfaces that the router has and that the path
names. Of the names only the set counts (`interpret_congr`).
-/
namespace RouterConsole.Config

/-- The faults that a text can have. No path of a text is empty, edits are refused by the router,
and whether a file can be read is settled before its text is. -/
def Fault.OfText : Fault → Prop
  | .emptyPath | .refused _ | .unreadable _ | .stated _ => False
  | _ => True

/-- A fault of the text that was noticed at a token. -/
def Error.OfText (e : Error) : Prop :=
  ∃ (fault : Fault) (token : Token), e = fault.at token ∧ fault.OfText

/-- The reading succeeds with a result of which `P` holds, or is refused at a token. -/
def Ends {α : Type} (P : α → Prop) : Except Error α → Prop
  | .ok a => P a
  | .error e => e.OfText

theorem Fault.OfText.ne_emptyPath {f : Fault} (h : f.OfText) : f ≠ .emptyPath := by
  rintro rfl
  exact h

theorem ofText_at {f : Fault} (h : f.OfText) (t : Token) : (f.at t).OfText := ⟨f, t, rfl, h⟩

namespace Ends

variable {α β : Type} {P : α → Prop} {Q : β → Prop}

theorem of_ok {x : Except Error α} {a : α} (h : Ends P x) (hx : x = .ok a) : P a := by
  rw [hx] at h
  exact h

theorem of_error {x : Except Error α} {e : Error} (h : Ends P x) (hx : x = .error e) :
    e.OfText := by
  rw [hx] at h
  exact h

theorem mono {Q : α → Prop} {x : Except Error α} (h : Ends P x) (hPQ : ∀ a, P a → Q a) :
    Ends Q x := by
  cases x with
  | error e => exact h
  | ok a => exact hPQ a h

theorem bind {x : Except Error α} {f : α → Except Error β} (hx : Ends P x)
    (hf : ∀ a, P a → Ends Q (f a)) : Ends Q (x >>= f) := by
  cases x with
  | error e => exact hx
  | ok a => exact hf a hx

theorem map {x : Except Error α} {f : α → β} (h : Ends (fun a => Q (f a)) x) :
    Ends Q (f <$> x) := by
  cases x with
  | error e => exact h
  | ok a => exact h

end Ends

/-- A directive that names only the given interfaces; a route is switched off, if at all, only
after it was added. -/
def Directive.Fits (names : List String) : Directive → Prop
  | .address i _ _ | .disable i _ => i ∈ names
  | .route r _ _ => r.disabled = false ∧ ∀ name, r.target = .interface name → name ∈ names

theorem Directive.Fits.mono {names names' : List String} {d : Directive} (h : d.Fits names)
    (hn : ∀ n ∈ names, n ∈ names') : d.Fits names' := by
  cases d with
  | address i _ _ | disable i _ => exact hn i h
  | route r _ _ => exact ⟨h.1, fun name ht => hn name (h.2 name ht)⟩

variable {names : List String}

/-- The names that stand on a path. -/
def namesOn (names : List String) (ts : List Token) : List String := names.filter (· ∈ values ts)

theorem mem_namesOn {n : String} {ts : List Token} :
    n ∈ namesOn names ts ↔ n ∈ names ∧ n ∈ values ts := by
  rw [namesOn, List.mem_filter, decide_eq_true_iff]

theorem nextToken_ends (last : Token) (ts : List Token) :
    Ends (fun p => ts = p.1 :: p.2) (nextToken last ts) := by
  cases ts with
  | nil => exact ofText_at (by trivial) last
  | cons t ts => exact rfl

theorem expectWord_ends (keyword : String) (last : Token) (ts : List Token) :
    Ends (fun p => p.1.value = keyword ∧ ts = p.1 :: p.2) (expectWord keyword last ts) := by
  apply (nextToken_ends last ts).bind
  rintro ⟨t, rest⟩ hts
  dsimp only
  split
  · rename_i ht
    exact ⟨ht, hts⟩
  · exact ofText_at (by trivial) t

theorem expectInterface_ends (names : List String) (last : Token) (ts : List Token) :
    Ends (fun p => p.1.value ∈ names ∧ ts = p.1 :: p.2) (expectInterface names last ts) := by
  apply (nextToken_ends last ts).bind
  rintro ⟨t, rest⟩ hts
  dsimp only
  split
  · rename_i ht
    exact ⟨ht, hts⟩
  · exact ofText_at (by trivial) t

theorem expectEnd_ends (ts : List Token) : Ends (fun _ => ts = []) (expectEnd ts) := by
  cases ts with
  | nil => exact rfl
  | cons t ts => exact ofText_at (by trivial) t

theorem readValue_ends {α : Type} (read : String → Except ValueFault α)
    {fault : String → ValueFault → Fault} (hf : ∀ v f, (fault v f).OfText) (t : Token) :
    Ends (fun a => read t.value = .ok a) (readValue read fault t) := by
  unfold readValue
  cases read t.value with
  | error f => exact ofText_at (hf t.value f) t
  | ok a => exact rfl

theorem interfacePath_ends {head : Token} (hhead : head.value = "interfaces") (ts : List Token) :
    Ends (PathAsks names (head :: ts)) (interfacePath names head ts) := by
  unfold interfacePath
  apply (expectWord_ends "ethernet" head ts).bind
  rintro ⟨ethernet, rest⟩ ⟨(hethernet : ethernet.value = "ethernet"), rfl⟩
  apply (expectInterface_ends names ethernet rest).bind
  rintro ⟨name, rest⟩ ⟨hname, rfl⟩
  apply (nextToken_ends name rest).bind
  rintro ⟨option, ts⟩ rfl
  have hinterface : values [head, ethernet, name] = ["interfaces", "ethernet", name.value] := by
    simp only [values_cons, values_nil, hhead, hethernet]
  dsimp only
  split
  · rename_i hoption
    apply (nextToken_ends option ts).bind
    rintro ⟨value, ts⟩ rfl
    apply (expectEnd_ends ts).bind
    rintro ⟨⟩ rfl
    have hsetting : values [head, ethernet, name, option] =
        ["interfaces", "ethernet", name.value, "address"] := by
      simp only [values_cons, values_nil, hhead, hethernet, hoption]
    dsimp only
    split
    · rename_i hdhcp
      refine PathAsks.dhcp (n := name.value) ?_ hname
      simp only [values_cons, values_nil, hhead, hethernet, hoption, hdhcp]
    · apply (readValue_ends Value.interfaceAddress (fun _ _ => by trivial) value).bind
      intro a ha
      exact PathAsks.address hsetting hname ha
  · split
    · rename_i hoption
      apply (expectEnd_ends ts).bind
      rintro ⟨⟩ rfl
      exact PathAsks.disable hinterface hname hoption
    · exact ofText_at (by trivial) option

theorem routeOptions_of_ne {t : Token} (ht : t.value ≠ "distance") (distance : Distance)
    (disable : Bool) (ts : List Token) :
    routeOptions distance disable (t :: ts) =
      if t.value = "disable" then routeOptions distance true ts
      else .error (Fault.unknownRouteOption.at t) := by
  rw [routeOptions.eq_def]
  exact if_neg ht

theorem routeOptions_of_end {t : Token} (ht : t.value = "distance") (distance : Distance)
    (disable : Bool) :
    routeOptions distance disable [t] = .error ((Fault.unexpectedEnd t.line).at t) := by
  rw [routeOptions, if_pos ht]

theorem routeOptions_of_eq {t : Token} (ht : t.value = "distance") (distance : Distance)
    (disable : Bool) (v : Token) (ts : List Token) :
    routeOptions distance disable (t :: v :: ts) =
      readValue Value.distance .badDistance v >>= fun d => routeOptions d disable ts := by
  rw [routeOptions, if_pos ht]

/-- What is read of options is their last distance and whether one of them disables. -/
theorem routeOptions_ends (distance : Distance) (disable : Bool) (ts : List Token) :
    Ends (fun p => ∃ options, OptionWords (values ts) options ∧
        p = (lastDistance distance options, disable || decide (RouteOption.disable ∈ options)))
      (routeOptions distance disable ts) := by
  -- A distance takes two tokens at once, so the cases are those of the function.
  induction distance, disable, ts using routeOptions.induct with
  | case1 distance disable => exact ⟨[], .nil, by simp⟩
  | case2 distance disable t ht =>
    rw [routeOptions_of_end ht]
    exact ofText_at (by trivial) t
  | case3 distance disable t ht v rest ih =>
    rw [routeOptions_of_eq ht]
    apply (readValue_ends Value.distance (fun _ _ => by trivial) v).bind
    intro d hd
    refine (ih d).mono ?_
    rintro p ⟨options, hoptions, rfl⟩
    refine ⟨.distance d :: options, ?_, ?_⟩
    · rw [values_cons, values_cons, ht]
      exact .distance hd hoptions
    · simp
  | case4 distance disable t ts ht hd ih =>
    rw [routeOptions_of_ne ht, if_pos hd]
    refine ih.mono ?_
    rintro p ⟨options, hoptions, rfl⟩
    refine ⟨.disable :: options, ?_, ?_⟩
    · rw [values_cons, hd]
      exact .disable hoptions
    · simp
  | case5 distance disable t ts ht hd =>
    rw [routeOptions_of_ne ht, if_neg hd]
    exact ofText_at (by trivial) t

theorem routeTarget_ends (names : List String) (last : Token) (ts : List Token) :
    Ends (fun p => ∃ target, ts = target ++ p.2 ∧ TargetWords names (values target) p.1)
      (routeTarget names last ts) := by
  unfold routeTarget
  apply (nextToken_ends last ts).bind
  rintro ⟨kind, rest⟩ rfl
  dsimp only
  split
  · rename_i hkind
    apply (nextToken_ends kind rest).bind
    rintro ⟨value, ts⟩ rfl
    apply (readValue_ends Value.gateway (fun _ _ => by trivial) value).bind
    intro g hg
    refine ⟨[kind, value], rfl, ?_⟩
    rw [values_cons, values_cons, hkind]
    exact .nextHop hg
  · split
    · rename_i hkind
      apply (expectInterface_ends names kind rest).bind
      rintro ⟨name, ts⟩ ⟨hname, rfl⟩
      refine ⟨[kind, name], rfl, ?_⟩
      rw [values_cons, values_cons, hkind]
      exact .interface hname
    · exact ofText_at (by trivial) kind

/-- What is read behind the word `protocols` is a route that is not switched off yet. The token
before is named only where nothing follows it. -/
theorem routePath_ends (head : Token) {first : Token} (hfirst : first.value = "protocols")
    (ts : List Token) :
    Ends (fun d => ∃ asked disable value, d = .route asked disable value ∧ asked.disabled = false ∧
        PathAsks names (first :: ts) (some d)) (routePath names head ts) := by
  unfold routePath
  apply (expectWord_ends "static" head ts).bind
  rintro ⟨static, rest⟩ ⟨(hstatic : static.value = "static"), rfl⟩
  apply (expectWord_ends "route" static rest).bind
  rintro ⟨route, rest⟩ ⟨(hroute : route.value = "route"), rfl⟩
  apply (nextToken_ends route rest).bind
  rintro ⟨value, rest⟩ rfl
  apply (readValue_ends Value.network (fun _ _ => by trivial) value).bind
  intro destination hdestination
  apply (routeTarget_ends names value rest).bind
  rintro ⟨target, ts⟩ ⟨words, rfl, htarget⟩
  apply (routeOptions_ends .default false ts).bind
  rintro ⟨distance, disable⟩ ⟨options, hoptions, hread⟩
  obtain ⟨rfl, rfl⟩ := Prod.mk.inj hread
  have hsetting : values [first, static, route] = ["protocols", "static", "route"] := by
    simp only [values_cons, values_nil, hfirst, hstatic, hroute]
  rw [Bool.false_or]
  exact ⟨_, _, value, rfl, rfl, PathAsks.route hsetting hdestination htarget hoptions⟩

/-- A path with a token on it is one of the grammar, and is read as what it asks for, or it is
refused at a token. -/
theorem interpret_ends {path : List Token} (h : path ≠ []) :
    Ends (PathAsks names path) (interpret names path) := by
  cases path with
  | nil => exact absurd rfl h
  | cons head ts =>
    rw [interpret]
    split
    · rename_i hhead
      exact interfacePath_ends hhead ts
    · split
      · rename_i hhead
        have hroute : Ends (fun d => PathAsks names (head :: ts) (some d))
            (routePath names head ts) := by
          refine (routePath_ends head hhead ts).mono ?_
          rintro d ⟨_, _, _, -, -, hasks⟩
          exact hasks
        exact hroute.map
      · exact ofText_at (by trivial) head

theorem TargetWords.mem {ws : List String} {through : RouteTarget}
    (h : TargetWords names ws through) {name : String} (ht : through = .interface name) :
    name ∈ names ∧ name ∈ ws := by
  cases h with
  | nextHop => cases ht
  | interface hn =>
    obtain rfl := RouteTarget.interface.inj ht
    exact ⟨hn, by simp⟩

/-- A path asks for nothing about interfaces that it does not name. -/
theorem PathAsks.fits {path : List Token} {d : Directive} (h : PathAsks names path (some d)) :
    d.Fits (namesOn names path) := by
  cases h with
  | address hs hn _ => exact mem_namesOn.mpr ⟨hn, by simp [hs]⟩
  | disable hs hn _ => exact mem_namesOn.mpr ⟨hn, by simp [hs]⟩
  | route _ _ ht _ =>
    refine ⟨rfl, fun name hto => ?_⟩
    obtain ⟨hn, hw⟩ := ht.mem hto
    exact mem_namesOn.mpr ⟨hn, by simp [hw]⟩

theorem expectInterface_congr {names' : List String} (h : ∀ n, n ∈ names ↔ n ∈ names') :
    expectInterface names = expectInterface names' := by
  funext last ts
  unfold expectInterface
  simp only [h]

/-- Of the names only the set counts. -/
theorem interpret_congr {names' : List String} (h : ∀ n, n ∈ names ↔ n ∈ names') :
    interpret names = interpret names' := by
  have he := expectInterface_congr h
  funext path
  cases path with
  | nil => rfl
  | cons head ts => simp only [interpret, interfacePath, routePath, routeTarget, he]

end RouterConsole.Config
