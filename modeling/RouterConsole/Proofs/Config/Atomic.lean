import RouterConsole.Proofs.Config.Notation
import RouterConsole.Proofs.Config.Replay
import RouterConsole.Proofs.ValueText

/-!
# Loads happen completely or not at all

A load either reports what it did or fails, and a failed load leaves the router as it was: the text
is refused at one of its tokens, or edits wait for a commit and the load does not even start.
-/
namespace RouterConsole

variable {name : String} {interfaces : List Interface} {r : Router}

namespace Config

/-- A fault that was noticed at a token; an empty path has none. -/
def Error.Located (e : Error) : Prop :=
  ∃ (fault : Fault) (token : Token), e = fault.at token ∧ fault ≠ .emptyPath

theorem Error.OfText.located {e : Error} (h : e.OfText) : e.Located := by
  obtain ⟨fault, token, rfl, hfault⟩ := h
  exact ⟨fault, token, rfl, hfault.ne_emptyPath⟩

theorem located_of_load_error (hs : r.Synced) (hd : r.dirty = false) {text : String}
    {format? : Option Format} {failure : Failure}
    (h : (load r text format?).result = .error failure) :
    (load r text format?).router = r ∧ ∃ e, failure = .configuration e ∧ e.Located := by
  rcases load_outcome hs hd text format? with
    ⟨ds, applied, skipped, c, hp, hrep⟩ | ⟨e, hrouter, he, hcause⟩
  · rw [(load_of_replays hs hd hp hrep).2] at h
    cases h
  · rw [he] at h
    obtain rfl := Except.error.inj h
    refine ⟨hrouter, e, rfl, ?_⟩
    rcases hcause with hp | ⟨err, token, rfl⟩
    · exact ((parse_ends _ _ text).of_error hp).located
    · exact ⟨.refused err, token, rfl, nofun⟩

/-- A load that fails leaves the router as it was, in either mode. -/
theorem load_unchanged (hs : r.Synced) {text : String} {format? : Option Format}
    {failure : Failure} (h : (load r text format?).result = .error failure) :
    (load r text format?).router = r := by
  by_cases hp : r.mode = .configuration ∧ r.dirty = true
  · exact (load_of_pending hp).1
  · exact (located_of_load_error hs (hs.clean_of_free hp) h).1

/-- A load of any text into any reachable router gives a report, or refuses the text at one of its
tokens, or refuses to start; the last exactly if edits wait for a commit in configuration mode. A
load that fails leaves the router as it was, with its mode, the mark of waiting edits and both
copies of the configuration. No line or path is read that has no token on it, and every route that
a text lists passes the checks that routes are built with. -/
theorem failed_load_changes_nothing (h : ReachableFrom (.new name interfaces) r)
    (text : String) (format? : Option Format) :
    ((∃ report, (load r text format?).result = .ok report) ∨
        (∃ (fault : Fault) (token : Token), fault ≠ .emptyPath ∧
          (load r text format?).result = .error (.configuration (fault.at token))) ∨
        (load r text format?).result = .error (.router .uncommittedChanges)) ∧
      ((load r text format?).result = .error (.router .uncommittedChanges) ↔
        r.mode = .configuration ∧ r.dirty = true) ∧
      (∀ failure, (load r text format?).result = .error failure →
        (load r text format?).router = r) ∧
      [] ∉ tokenize text ∧
      [] ∉ (readPaths (format?.getD (detectFormat text)) text).paths ∧
      ∀ ds, parse (format?.getD (detectFormat text)) r.interfaceNames text = .ok ds →
        ∀ route disable token, Directive.route route disable token ∈ ds →
          route.description.build = .ok route := by
  have hs := h.synced
  have hread := (readPaths_sound (format?.getD (detectFormat text)) text).nonempty
  by_cases hp : r.mode = .configuration ∧ r.dirty = true
  · have hload : (load r text format?).router = r ∧
        (load r text format?).result = .error (.router .uncommittedChanges) := load_of_pending hp
    obtain ⟨hrouter, hresult⟩ := hload
    refine ⟨.inr (.inr hresult), ⟨fun _ => hp, fun _ => hresult⟩, fun _ _ => hrouter,
      nil_not_mem_tokenize text, hread, fun _ _ route _ _ _ => route.build_description⟩
  · have hd : r.dirty = false := by
      cases hm : r.mode with
      | operational => exact hs.clean hm
      | configuration =>
        cases hd : r.dirty with
        | false => rfl
        | true => exact absurd ⟨hm, hd⟩ hp
    refine ⟨?_, ⟨fun hresult => ?_, fun hpending => absurd hpending hp⟩, fun failure hfailure => ?_,
      nil_not_mem_tokenize text, hread, fun _ _ route _ _ _ => route.build_description⟩
    · cases hresult : (load r text format?).result with
      | ok report => exact .inl ⟨report, rfl⟩
      | error failure =>
        obtain ⟨-, e, rfl, fault, token, rfl, hf⟩ := located_of_load_error hs hd hresult
        exact .inr (.inl ⟨fault, token, hf, rfl⟩)
    · obtain ⟨-, e, he, -⟩ := located_of_load_error hs hd hresult
      cases he
    · exact (located_of_load_error hs hd hfailure).1

/-- A text whose first line is sound and whose second is not leaves a clean router as it was. -/
theorem failed_load_of_unknown_path :
    let start := Router.new "edge" [.fresh "eth0" ⟨.replicate 6 2⟩]
    let r := start.run [.setMode .configuration, .edit (.disableInterface "eth0"), .commit]
    let text := "set interfaces ethernet eth0 address 10.0.0.1/24\nset system\n"
    (load r text).result.toOption = none ∧ (load r text).router.mode = .configuration ∧
      (load r text).router.dirty = false ∧ (load r text).router.committed = r.committed ∧
      (load r text).router.staged = r.committed := by
  intro start r text
  have hr : ReachableFrom start r := ReachableFrom.refl.run _
  have hfail : (load r text).result.toOption = none := by decide +kernel
  have hclean : r.mode = .configuration ∧ r.dirty = false ∧ r.staged = r.committed := by decide
  obtain ⟨-, -, hunchanged, -⟩ := failed_load_changes_nothing hr text none
  cases hresult : (load r text).result with
  | ok report =>
    rw [hresult] at hfail
    cases hfail
  | error failure =>
    have hrouter := hunchanged failure hresult
    rw [hrouter]
    exact ⟨rfl, hclean.1, hclean.2.1, rfl, hclean.2.2⟩

end Config

end RouterConsole
