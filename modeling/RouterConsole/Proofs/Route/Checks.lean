import RouterConsole.Proofs.Config.Grammar
import RouterConsole.Proofs.IPv4.Hosts
import RouterConsole.Proofs.Shell.SetLine

/-!
# The checks of a route have nothing to refuse

A route is made of values that are read one by one, and its own checks are made on these values
again: that there is one target, that the distance is in range, that the destination is a network.
What the readers let pass the checks let pass, so that a typed command is refused for a value that
it names and a path at one of its tokens, and nothing else can go wrong on the way to a route.
-/
namespace RouterConsole

open Config (Directive Error PathAsks Token expectWord nextToken readValue routeOptions routePath
  routeTarget)
open IPv4 (Network)
open Shell (Arguments RouteCommand)

/-- Why no route is built: something that is read for it is refused, or its own checks fail. -/
inductive BuildFailure (ε : Type) where
  | refused (error : ε)
  | invalid (error : ValidationError)

theorem mapError_bind {ε ε' α β : Type} (x : Except ε α) (f : α → Except ε β) (g : ε → ε') :
    (x >>= f).mapError g = x.mapError g >>= fun a => (f a).mapError g := by
  cases x <;> rfl

/-! ## The checks -/

namespace StaticRoute

/-- The route with these values, unless its checks fail. They are handed over as they are written
down. -/
def checked (destination : Network) (target : RouteTarget) (distance : Int) :
    Except ValidationError StaticRoute :=
  RouteDescription.build
    { destination := some destination.text, nextHop := target.gateway?.map (·.text),
      interface := target.interface?, distance := distance }

/-- Of a network, a target and a number, only the number can be refused. -/
theorem checked_eq (destination : Network) (target : RouteTarget) (n : Int) :
    checked destination target n =
      match Distance.ofInt? n with
      | some distance => .ok { destination, target, distance }
      | none => .error ⟨[("distance", if n < 1 then .below 1 else .above 255)]⟩ := by
  simp only [checked, RouteDescription.build, checkDestination_text, checkGateway_text,
    checkDistance_eq]
  cases Distance.ofInt? n with
  | none => rfl
  | some distance => cases target <;> rfl

/-- Whatever number was read as a distance passes. -/
theorem checked_distance (destination : Network) (target : RouteTarget) (distance : Distance) :
    checked destination target distance.toNat = .ok { destination, target, distance } := by
  rw [checked_eq, Distance.ofInt?_eq_some_iff.mpr rfl]

/-- A route as it may be built: its destination has no host bits, it has one target, its distance is
in range, and it is not switched off. -/
structure Sound (r : StaticRoute) : Prop where
  host_bits : ∀ i < 32 - r.destination.length.val, r.destination.base.toNat.testBit i = false
  one_target : ¬(r.target.gateway? = none ↔ r.target.interface? = none)
  one_le_distance : 1 ≤ r.distance.toNat
  distance_le : r.distance.toNat ≤ 255
  enabled : r.disabled = false

theorem sound_of_enabled {r : StaticRoute} (h : r.disabled = false) : r.Sound where
  host_bits := by
    have hbase : (⟨r.destination.base, r.destination.length⟩ : IPv4.InterfaceAddress).network =
        r.destination := Network.containing_base r.destination
    exact IPv4.InterfaceAddress.hostBits_false_iff.mpr (by rw [hbase])
  one_target := by cases r.target <;> simp [RouteTarget.gateway?, RouteTarget.interface?]
  one_le_distance := r.distance.one_le
  distance_le := r.distance.le_255
  enabled := h

end StaticRoute

/-! ## Commands -/

namespace Shell.RouteCommand

/-- The route of a command, with its checks made on what was read. -/
def checkedRoute (c : RouteCommand) (args : Arguments) :
    Except (BuildFailure RouterError) StaticRoute := do
  let destination ← (typed Value.network (args.value "destination")).mapError .refused
  let distance ← (c.readDistance args).mapError .refused
  let target ← (c.readTarget args).mapError .refused
  (StaticRoute.checked destination target distance.toNat).mapError .invalid

/-- The checks change nothing. -/
theorem checkedRoute_eq (c : RouteCommand) (args : Arguments) :
    c.checkedRoute args = (c.route args).mapError .refused := by
  simp only [checkedRoute, route_eq, mapError_bind, StaticRoute.checked_distance]
  rfl

variable {c : RouteCommand} {args : Arguments} {r : StaticRoute}

/-- The values of the route are those that are read from the arguments of the command. -/
structure ReadFrom (c : RouteCommand) (args : Arguments) (r : StaticRoute) : Prop where
  destination : Value.network (args.value "destination") = .ok r.destination
  target : c.readTarget args = .ok r.target
  distance : c.readDistance args = .ok r.distance

theorem of_route (h : c.route args = .ok r) : r.Sound ∧ c.ReadFrom args r := by
  rw [route_eq] at h
  obtain ⟨destination, hdestination, h⟩ := bind_eq_ok_iff.mp h
  obtain ⟨distance, hdistance, h⟩ := bind_eq_ok_iff.mp h
  obtain ⟨target, htarget, h⟩ := bind_eq_ok_iff.mp h
  obtain rfl := Except.ok.inj h
  exact ⟨StaticRoute.sound_of_enabled rfl, typed_eq_ok_iff.mp hdestination, htarget, hdistance⟩

end Shell.RouteCommand

/-! ## Paths -/

namespace Config

/-- The route behind the word `protocols`, with its checks made on what was read. -/
def checkedRoutePath (names : List String) (head : Token) (ts : List Token) :
    Except (BuildFailure Error) Directive := do
  let (static, ts) ← (expectWord "static" head ts).mapError .refused
  let (route, ts) ← (expectWord "route" static ts).mapError .refused
  let (value, ts) ← (nextToken route ts).mapError .refused
  let destination ← (readValue Value.network .badDestination value).mapError .refused
  let (target, ts) ← (routeTarget names value ts).mapError .refused
  let (distance, disable) ← (routeOptions .default false ts).mapError .refused
  let asked ← (StaticRoute.checked destination target distance.toNat).mapError .invalid
  return .route asked disable value

theorem checkedRoutePath_eq (names : List String) (head : Token) (ts : List Token) :
    checkedRoutePath names head ts = (routePath names head ts).mapError .refused := by
  simp only [checkedRoutePath, routePath, mapError_bind, StaticRoute.checked_distance]
  rfl

end Config

/-- Whether a route is typed or stands in a path, its checks refuse nothing: with them, the result
is the same as without. So a route is built, which is sound and has the values that were read, or a
value that was typed is refused, or a token of the path. -/
theorem route_checks_refuse_nothing :
    (∀ (c : RouteCommand) (args : Arguments),
      c.checkedRoute args = (c.route args).mapError .refused ∧
      ((∃ r, c.route args = .ok r ∧ r.Sound ∧ c.ReadFrom args r) ∨
        ∃ value reason, c.route args = .error (.badValue value reason))) ∧
    (∀ (names : List String) (head : Token) (ts : List Token),
      Config.checkedRoutePath names head ts = (routePath names head ts).mapError .refused ∧
      ((∃ r disable value, routePath names head ts = .ok (.route r disable value) ∧ r.Sound ∧
          PathAsks names (⟨"protocols", 1, 1⟩ :: ts) (some (.route r disable value))) ∨
        ∃ e, routePath names head ts = .error e ∧ e.OfText)) ∧
    ∀ s d, Value.distance s = .ok d ↔ Text.integer? s = some (d.toNat : Int) := by
  refine ⟨fun c args => ⟨c.checkedRoute_eq args, ?_⟩,
    fun names head ts => ⟨Config.checkedRoutePath_eq names head ts, ?_⟩,
    fun _ _ => Value.distance_eq_ok_iff⟩
  · cases h : c.route args with
    | ok r => exact .inl ⟨r, rfl, RouteCommand.of_route h⟩
    | error e =>
      obtain ⟨value, reason, rfl⟩ := c.readsValue_route args e h
      exact .inr ⟨value, reason, rfl⟩
  · have hfirst : (⟨"protocols", 1, 1⟩ : Token).value = "protocols" := rfl
    have hends := @Config.routePath_ends names head _ hfirst ts
    cases h : routePath names head ts with
    | ok d =>
      obtain ⟨r, disable, value, rfl, henabled, hasks⟩ := hends.of_ok h
      exact .inl ⟨r, disable, value, rfl, StaticRoute.sound_of_enabled henabled, hasks⟩
    | error e => exact .inr ⟨e, rfl, hends.of_error h⟩

end RouterConsole
