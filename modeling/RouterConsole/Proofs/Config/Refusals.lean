import RouterConsole.Proofs.Config.Notation
import RouterConsole.Proofs.Config.Replay
import RouterConsole.Proofs.Router.WellFormed
import RouterConsole.Proofs.ValueText

/-!
# What a load is refused for

A load is refused for its text, or for the first address in it that no interface may have, and for
nothing else. The parser has checked every interface that a directive names, a route is switched
off right after it was listed, and what is there already is skipped, so that the router has no
other reason to refuse an edit of a directive (`Granted`).
-/
namespace RouterConsole.Config

open RouterConsole.Configuration (Edited Refused)

/-- A directive that gives no interface the first or the last address of a network. -/
def Directive.Usable : Directive → Prop
  | .address _ a _ => UsableAddress a
  | .disable _ _ | .route _ _ _ => True

/-- What an edit of a directive needs in order to be applied or skipped. -/
inductive Granted (c : Configuration) : Edit → Prop
  | setAddress {name : String} {a : IPv4.InterfaceAddress} : name ∈ c.names → UsableAddress a →
      Granted c (.setAddress name a)
  | disableInterface {name : String} : name ∈ c.names → Granted c (.disableInterface name)
  | addRoute {route : StaticRoute} :
      (∀ name, route.target = .interface name → name ∈ c.names) → Granted c (.addRoute route)
  | disableRoute {route : StaticRoute} : route.key ∈ c.routes.keys →
      Granted c (.disableRoute route)

section Replay

variable {c c' : Configuration} {applied skipped : List String}

/-- Such an edit is refused only because what it asks for is there already. -/
theorem Granted.isDuplicate {e : Edit} {err : RouterError} (h : Granted c e)
    (hr : Refused c e err) : err.isDuplicate = true := by
  cases h with
  | setAddress hn ha =>
    cases hr with
    | noInterface he hno =>
      obtain rfl := Option.some.inj he
      exact absurd hn hno
    | unusable _ hp =>
      rw [addressProblem?_eq_none_iff.mpr ha] at hp
      cases hp
    | addressThere => rfl
  | disableInterface hn =>
    cases hr with
    | noInterface he hno =>
      obtain rfl := Option.some.inj he
      exact absurd hn hno
    | alreadyDisabled => rfl
  | addRoute ht =>
    cases hr with
    | noInterface he => cases he
    | noTarget hto hno => exact absurd (ht _ hto) hno
    | routeThere => rfl
  | disableRoute hk =>
    cases hr with
    | noInterface he => cases he
    | noSuchRoute hno => exact absurd hk hno
    | routeDisabled => rfl

theorem replays_edit {e : Edit} (h : Granted c e) (path : String) :
    ∃ applied skipped c', Replays c [(path, e)] applied skipped c' := by
  rcases Configuration.edited_or_refused c e with ⟨c', he⟩ | ⟨err, hr⟩
  · exact ⟨[path], [], c', .applied he (.nil c')⟩
  · exact ⟨[], [path], c, .skipped hr (h.isDuplicate hr) (.nil c)⟩

theorem Replays.names_eq {es : List (String × Edit)} (h : Replays c es applied skipped c') :
    c'.names = c.names := by
  induction h with
  | nil => rfl
  | applied he _ ih => exact ih.trans he.names_eq
  | skipped _ _ _ ih => exact ih

/-- A route that was to be listed is in the table, whether it was added or there before. -/
theorem key_mem_of_replays {route : StaticRoute} {path : String}
    (h : Replays c [(path, .addRoute route)] applied skipped c') :
    route.key ∈ c'.routes.keys := by
  cases h with
  | applied he hrest =>
    cases hrest
    cases he
    rw [RoutingTable.keys_add]
    exact List.mem_append_right _ List.mem_cons_self
  | skipped hr hd hrest =>
    cases hrest
    cases hr with
    | noInterface he => cases he
    | noTarget => cases hd
    | routeThere _ hk => exact hk

theorem replays_directive {d : Directive} (hfits : d.Fits c.names) (husable : d.Usable) :
    ∃ applied skipped c', Replays c d.edits applied skipped c' := by
  cases d with
  | address i a _ => exact replays_edit (.setAddress hfits husable) _
  | disable i _ => exact replays_edit (.disableInterface hfits) _
  | route r disable _ =>
    obtain ⟨applied, skipped, c₁, hlisted⟩ := replays_edit (.addRoute hfits.2) r.configPath
    cases disable with
    | false => exact ⟨applied, skipped, c₁, hlisted⟩
    | true =>
      have hoff : Granted c₁ (.disableRoute r) := .disableRoute (key_mem_of_replays hlisted)
      obtain ⟨applied', skipped', c', hdisabled⟩ :=
        replays_edit hoff (Text.unwords (disableRouteWords r))
      exact ⟨_, _, c', hlisted.append hdisabled⟩

theorem replays_of_usable {ds : List Directive} (hfits : ∀ d ∈ ds, d.Fits c.names)
    (husable : ∀ d ∈ ds, d.Usable) :
    ∃ applied skipped c', Replays c (edits ds) applied skipped c' := by
  induction ds generalizing c with
  | nil => exact ⟨[], [], c, .nil c⟩
  | cons d ds ih =>
    obtain ⟨hd, hds⟩ := List.forall_mem_cons.mp hfits
    obtain ⟨hu, hus⟩ := List.forall_mem_cons.mp husable
    obtain ⟨applied, skipped, c₁, h₁⟩ := replays_directive hd hu
    -- No directive changes a name, so those behind it still name interfaces that are there.
    rw [← h₁.names_eq] at hds
    obtain ⟨applied', skipped', c', h'⟩ := ih hds hus
    exact ⟨_, _, c', h₁.append h'⟩

/-- The first address that no interface may have stops the directives. -/
theorem applyDirectives_of_unusable {before after : List Directive} {i : String}
    {a : IPv4.InterfaceAddress} {token : Token} {problem : AddressProblem}
    (hbefore : Replays c (edits before) applied skipped c') (hi : i ∈ c.names)
    (ha : addressProblem? a = some problem) (report : Report) (r : Router) :
    ∃ skipped', applyDirectives report (r.editing c) (before ++ .address i a token :: after) =
      (r.editing c', .error
        ⟨.configuration ((Fault.refused (.unusableAddress a problem a.suggestion?)).at token),
          skipped'⟩) := by
  have hi' : i ∈ c'.names := by rwa [hbefore.names_eq]
  obtain ⟨settings, hs⟩ :=
    Option.ne_none_iff_exists'.mp fun hn => Configuration.settings_eq_none_iff.mp hn hi'
  have hrefused : Refused c' (.setAddress i a) (.unusableAddress a problem a.suggestion?) :=
    .unusable hs ha
  refine ⟨(report.extend applied skipped).skipped, ?_⟩
  rw [applyDirectives_append hbefore, applyDirectives]
  simp only [Directive.token, Directive.edits, applyEdits_refused hrefused rfl]

end Replay

/-- If not all directives are usable, one of them is the first that is not. -/
theorem exists_first_unusable {ds : List Directive} (h : ¬∀ d ∈ ds, d.Usable) :
    ∃ before i a token after, ds = before ++ .address i a token :: after ∧
      (∀ d ∈ before, d.Usable) ∧ ¬UsableAddress a := by
  induction ds with
  | nil => exact absurd nofun h
  | cons d ds ih =>
    by_cases hd : d.Usable
    · obtain ⟨before, i, a, token, after, rfl, hbefore, ha⟩ :=
        ih fun hds => h (List.forall_mem_cons.mpr ⟨hd, hds⟩)
      exact ⟨d :: before, i, a, token, after, rfl, List.forall_mem_cons.mpr ⟨hd, hbefore⟩, ha⟩
    · cases d with
      | address i a token => exact ⟨[], i, a, token, ds, rfl, nofun, hd⟩
      | disable | route => exact absurd trivial hd

/-- The token of an address is the word that the address was read from. -/
theorem read_address_of_parse {format : Format} {names : List String} {text : String}
    {ds : List Directive} (hp : parse format names text = .ok ds) {i : String}
    {a : IPv4.InterfaceAddress} {token : Token} (h : .address i a token ∈ ds) :
    Value.interfaceAddress token.value = .ok a := by
  obtain ⟨path, -, hasks⟩ := (parse_ends_asked format names text).of_ok hp _ h
  cases hasks with
  | address _ _ ha => exact ha

/-- What a text has wrong comes from the router only where a value cannot be read. -/
theorem Fault.OfText.cause {f : Fault} (h : f.OfText) {err : RouterError}
    (he : f.cause? = some err) : ∃ value reason, err = .badValue value reason := by
  cases f with
  | badAddress v g | badDestination v g | badGateway v g | badDistance v g =>
    exact ⟨v, g.message, (Option.some.inj he).symm⟩
  | refused => exact h.elim
  | _ => cases he

variable {r : Router} {text : String} {format? : Option Format}

/-- The router that a load starts from has the names that it had before. -/
theorem interfaceNames_started (r : Router) :
    (r.editing r.visible.cleared).interfaceNames = r.interfaceNames := r.visible.names_cleared

theorem fits_of_parse {format : Format} {ds : List Directive}
    (hp : parse format r.interfaceNames text = .ok ds) :
    ∀ d ∈ ds, d.Fits r.visible.cleared.names := by
  rw [Configuration.names_cleared]
  exact (parse_ends _ _ text).of_ok hp

section Load

variable (h : ¬(r.mode = .configuration ∧ r.dirty = true))

include h

theorem load_result_of_parse_error {e : Error}
    (hp : parse (format?.getD (detectFormat text)) r.interfaceNames text = .error e) :
    (load r text format?).result = .error (.configuration e) := by
  have ha : applyText (format?.getD (detectFormat text)) text (r.editing r.visible.cleared) =
      (r.editing r.visible.cleared, .error ⟨.configuration e, []⟩) := by
    simp only [applyText, interfaceNames_started, hp]
  exact load_result h ha

theorem load_result_of_directives {ds : List Directive} {c : Configuration}
    {outcome : Except LoadFailure Report}
    (hp : parse (format?.getD (detectFormat text)) r.interfaceNames text = .ok ds)
    (hds : applyDirectives ⟨format?.getD (detectFormat text), [], []⟩ (r.editing r.visible.cleared)
      ds = (r.editing c, outcome)) :
    (load r text format?).result = outcome.mapError (·.error) := by
  have ha : applyText (format?.getD (detectFormat text)) text (r.editing r.visible.cleared) =
      (r.editing c, outcome) := by
    simp only [applyText, interfaceNames_started, hp, hds]
  exact load_result h ha

theorem load_result_of_usable {ds : List Directive}
    (hp : parse (format?.getD (detectFormat text)) r.interfaceNames text = .ok ds)
    (husable : ∀ d ∈ ds, d.Usable) : ∃ report, (load r text format?).result = .ok report := by
  obtain ⟨applied, skipped, c, hreplays⟩ := replays_of_usable (fits_of_parse hp) husable
  exact ⟨_, load_result_of_directives h hp (applyDirectives_of_replays hreplays _ r)⟩

theorem load_result_of_unusable {before after : List Directive} {i : String}
    {a : IPv4.InterfaceAddress} {token : Token}
    (hp : parse (format?.getD (detectFormat text)) r.interfaceNames text =
      .ok (before ++ .address i a token :: after))
    (hbefore : ∀ d ∈ before, d.Usable) (ha : ¬UsableAddress a) :
    ∃ problem, addressProblem? a = some problem ∧ (load r text format?).result =
      .error (.configuration
        ((Fault.refused (.unusableAddress a problem a.suggestion?)).at token)) := by
  rw [← addressProblem?_eq_none_iff] at ha
  obtain ⟨problem, hproblem⟩ := Option.ne_none_iff_exists'.mp ha
  have hfits := fits_of_parse hp
  obtain ⟨applied, skipped, c, hreplays⟩ :=
    replays_of_usable (fun d hd => hfits d (List.mem_append_left _ hd)) hbefore
  have hi : i ∈ r.visible.cleared.names :=
    hfits (.address i a token) (List.mem_append_right _ List.mem_cons_self)
  obtain ⟨skipped', hstop⟩ := applyDirectives_of_unusable hreplays hi hproblem _ r
  exact ⟨problem, hproblem, load_result_of_directives h hp hstop⟩

/-- A load fails as its text does, or succeeds, or is stopped by the first address that no
interface may have. -/
theorem load_result_cases (text : String) (format? : Option Format) :
    (∃ e, parse (format?.getD (detectFormat text)) r.interfaceNames text = .error e ∧
      (load r text format?).result = .error (.configuration e)) ∨
    (∃ ds, parse (format?.getD (detectFormat text)) r.interfaceNames text = .ok ds ∧
      (∀ d ∈ ds, d.Usable) ∧ ∃ report, (load r text format?).result = .ok report) ∨
    ∃ ds a problem token, parse (format?.getD (detectFormat text)) r.interfaceNames text = .ok ds ∧
      (∃ i, .address i a token ∈ ds) ∧ (load r text format?).result = .error (.configuration
        ((Fault.refused (.unusableAddress a problem a.suggestion?)).at token)) := by
  cases hp : parse (format?.getD (detectFormat text)) r.interfaceNames text with
  | error e => exact .inl ⟨e, rfl, load_result_of_parse_error h hp⟩
  | ok ds =>
    by_cases husable : ∀ d ∈ ds, d.Usable
    · exact .inr (.inl ⟨ds, rfl, husable, load_result_of_usable h hp husable⟩)
    · obtain ⟨before, i, a, token, after, rfl, hbefore, ha⟩ := exists_first_unusable husable
      obtain ⟨problem, -, hresult⟩ := load_result_of_unusable h hp hbefore ha
      exact .inr (.inr ⟨_, a, problem, token, rfl,
        ⟨i, List.mem_append_right before List.mem_cons_self⟩, hresult⟩)

end Load

/-- A load into a router without waiting edits succeeds exactly if its text can be read and no
address in it is the first or the last of its network. If the text cannot be read, the load fails
as the reading does. Otherwise the first such address, in the order of the directives, is refused
at its own token, and nothing but a value or an address is ever the router's reason. -/
theorem load_refuses_text_or_address (h : ¬(r.mode = .configuration ∧ r.dirty = true))
    (text : String) (format? : Option Format) :
    let parsed := parse (format?.getD (detectFormat text)) r.interfaceNames text
    let result := (load r text format?).result
    ((∃ report, result = .ok report) ↔ ∃ ds, parsed = .ok ds ∧ ∀ d ∈ ds, d.Usable) ∧
      (∀ e, parsed = .error e → result = .error (.configuration e)) ∧
      (∀ before i a token after, parsed = .ok (before ++ .address i a token :: after) →
        (∀ d ∈ before, d.Usable) → ¬UsableAddress a →
        ∃ problem, addressProblem? a = some problem ∧
          Value.interfaceAddress token.value = .ok a ∧
          result = .error (.configuration
            ((Fault.refused (.unusableAddress a problem a.suggestion?)).at token))) ∧
      ∀ failure, result = .error failure → ∃ e, failure = .configuration e ∧
        ∀ err, e.fault.cause? = some err →
          (parsed = .error e ∧ ∃ value reason, err = .badValue value reason) ∨
            ∃ a problem, err = .unusableAddress a problem a.suggestion? := by
  intro parsed result
  refine ⟨⟨?_, fun ⟨ds, hp, husable⟩ => load_result_of_usable h hp husable⟩,
    fun e hp => load_result_of_parse_error h hp, fun before i a token after hp hbefore ha => ?_,
    fun failure hfailure => ?_⟩
  · rintro ⟨report, hreport⟩
    rcases load_result_cases h text format? with
      ⟨e, -, he⟩ | ⟨ds, hp, husable, -⟩ | ⟨ds, a, problem, token, -, -, he⟩
    · cases he.symm.trans hreport
    · exact ⟨ds, hp, husable⟩
    · cases he.symm.trans hreport
  · obtain ⟨problem, hproblem, hresult⟩ := load_result_of_unusable h hp hbefore ha
    have hread := read_address_of_parse hp (List.mem_append_right before List.mem_cons_self)
    exact ⟨problem, hproblem, hread, hresult⟩
  · rcases load_result_cases h text format? with
      ⟨e, hp, he⟩ | ⟨ds, -, -, report, hreport⟩ | ⟨ds, a, problem, token, -, -, he⟩
    · obtain rfl := Except.error.inj (he.symm.trans hfailure)
      obtain ⟨fault, token, rfl, hfault⟩ := (parse_ends _ _ text).of_error hp
      exact ⟨_, rfl, fun err herr => .inl ⟨hp, hfault.cause herr⟩⟩
    · cases hreport.symm.trans hfailure
    · obtain rfl := Except.error.inj (he.symm.trans hfailure)
      exact ⟨_, rfl, fun err herr => .inr ⟨a, problem, (Option.some.inj herr).symm⟩⟩

/-- The first address of a pair may be given, that of a larger network is refused. -/
theorem load_refuses_text_or_address_of_network :
    let r := Router.new "edge" [.fresh "eth0" ⟨.replicate 6 2⟩]
    let text := "set interfaces ethernet eth0 address 10.0.0.0/31\n" ++
      "set interfaces ethernet eth0 address 192.168.1.0/24"
    let a : IPv4.InterfaceAddress := ⟨.ofNat 0xC0A80100, 24⟩
    let token : Token := ⟨"192.168.1.0/24", 2, 38⟩
    ¬(r.mode = .configuration ∧ r.dirty = true) ∧ ¬UsableAddress a ∧
      (load r text none).result = .error (.configuration
        ((Fault.refused (.unusableAddress a .network a.suggestion?)).at token)) := by
  intro r text a token
  have hr : ¬(r.mode = .configuration ∧ r.dirty = true) := by decide
  have hproblem : addressProblem? a = some .network := by decide +kernel
  have ha : ¬UsableAddress a := by
    rw [← addressProblem?_eq_none_iff, hproblem]
    exact nofun
  let first : Directive := .address "eth0" ⟨.ofNat 0x0A000000, 31⟩ ⟨"10.0.0.0/31", 1, 38⟩
  have hfirst : ∀ d ∈ [first], d.Usable :=
    List.forall_mem_singleton.mpr (addressProblem?_eq_none_iff.mp (by decide +kernel))
  have hp : parse ((none : Option Format).getD (detectFormat text)) r.interfaceNames text =
      .ok ([first] ++ .address "eth0" a token :: []) := eq_ok_of_toOption (by decide +kernel)
  obtain ⟨problem, hsome, -, hresult⟩ :=
    (load_refuses_text_or_address hr text none).2.2.1 _ _ _ _ _ hp hfirst ha
  obtain rfl := Option.some.inj (hproblem.symm.trans hsome)
  exact ⟨hr, ha, hresult⟩

end RouterConsole.Config
