import RouterConsole.Proofs.Shell.Reachable

/-!
# Lines happen completely or not at all

A line that is presented as a failure leaves the router as it was and writes the failure, after the
announcement if the line was to load a file. An editing line that is not refused changes the staged
copy, so that the two are told apart by what they leave behind.
-/
namespace RouterConsole.Shell

variable {files : Storage.Files} {r : Router} {line : String} {c : Command} {args : Arguments}

/-- What a called command that fails leaves behind and writes. -/
theorem dispatch_of_failed (hs : r.Synced)
    (hcall : (Command.registry files).called? line = some (c, args)) {p : Presented}
    (h : (dispatch files r line).result = .presented p) :
    (dispatch files r line).router = r ∧
      (dispatch files r line).output =
        (if c = .load then Command.announcement (args.value "file") else "") ++
          p.message ++ "\n" := by
  obtain ⟨hrouter, houtput, hresult⟩ := dispatch_of_called (r := r) hcall
  have hran := Command.execute_ran files c args r
  rw [hresult] at h
  obtain ⟨failure, hfailed⟩ := failed_of_presented h
  have hending : (c.execute files args r).ending = .failed failure := hfailed
  obtain ⟨q, hq, hwritten⟩ := invoke_of_failed hfailed
  rw [h] at hq
  obtain rfl := Result.presented.inj hq
  constructor
  · rw [hrouter]
    exact hran.unchanged hs (by simp [hending])
  · rw [houtput, hwritten]
    exact congrArg (· ++ p.message ++ "\n") (hran.output_of_failed hending)

/-- A called editing command is carried out and changes the staged copy, or is presented as a
failure and changes nothing. -/
theorem dispatch_of_edit (hcall : (Command.registry files).called? line = some (c, args))
    {request : Except RouterError Edit} (hedit : c.edit? args = some request) :
    ((dispatch files r line).result = .done ∧
        (∃ c', request >>= r.staged.edit = .ok c' ∧ c' ≠ r.staged ∧ r.mode = .configuration ∧
          (dispatch files r line).router = { r with staged := c', dirty := true }) ∧
        (dispatch files r line).output = Command.editMarker ++ "\n") ∨
      (∃ p, (dispatch files r line).result = .presented p) ∧
        (dispatch files r line).router = r := by
  obtain ⟨hrouter, houtput, hresult⟩ := dispatch_of_called (r := r) hcall
  rcases Command.execute_of_edit hedit files r with ⟨e, c', rfl, hm, hc, he⟩ | ⟨err, he⟩
  · have hfinished : ((Command.registry files).run c args r).ending = .finished :=
      congrArg Execution.ending he
    obtain ⟨hdone, hwritten⟩ := invoke_of_finished hfinished
    refine .inl ⟨hresult.trans hdone, ⟨c', hc.edit_eq, hc.ne, hm, ?_⟩, ?_⟩
    · rw [hrouter, he]
    · rw [houtput, hwritten]
      exact congrArg Execution.output he
  · have hfailed : ((Command.registry files).run c args r).ending = .failed (.router err) :=
      congrArg Execution.ending he
    obtain ⟨p, hp, -⟩ := invoke_of_failed hfailed
    refine .inr ⟨⟨p, hresult.trans hp⟩, ?_⟩
    rw [hrouter, he]

/-- The commands that edit: the family of route commands, and four commands about an interface. -/
def editing : List Command :=
  RouteCommand.all.map .route ++
    [.deleteAddress, .enableInterface, .disableInterface, .setAddress]

theorem edit?_of_editing (h : c ∈ editing) (args : Arguments) :
    ∃ request, c.edit? args = some request := by
  rcases List.mem_append.mp h with h | h
  · obtain ⟨c, -, rfl⟩ := List.mem_map.mp h
    exact ⟨_, rfl⟩
  · simp only [List.mem_cons, List.not_mem_nil, or_false] at h
    rcases h with rfl | rfl | rfl | rfl <;> exact ⟨_, rfl⟩

/-- At every router that operations, loads and lines lead to, with every file system: a line whose
result is presented, however severe, leaves the router as it was, in its mode, its mark of waiting
edits and both copies of the configuration, and writes the presented text and nothing else, but for
the announcement if the line loads a file. A line that fits an editing command succeeds exactly if
it changes the staged copy; then it writes the edit marker alone, and the router is dirty, in the
same mode and with the same committed copy. -/
theorem failed_line_changes_nothing {name : String} {interfaces : List Interface}
    (h : Reaches (.new name interfaces) r) (files : Storage.Files) (line : String) :
    (∀ p, (dispatch files r line).result = .presented p →
        (dispatch files r line).router = r ∧
        (∀ args, (Command.registry files).called? line = some (.load, args) →
          (dispatch files r line).output =
            "Loading configuration from '" ++ args.value "file" ++ "'...\n" ++ p.message ++ "\n") ∧
        ((∀ args, (Command.registry files).called? line ≠ some (.load, args)) →
          (dispatch files r line).output = p.message ++ "\n")) ∧
      ∀ c args, (Command.registry files).find? line = some (c, args) → c ∈ editing →
        ((dispatch files r line).result = .done ↔
          (dispatch files r line).router.staged ≠ r.staged) ∧
        ((dispatch files r line).result = .done →
          (dispatch files r line).output = "[edit]\n" ∧
            (dispatch files r line).router.dirty = true ∧
            (dispatch files r line).router.mode = r.mode ∧
            (dispatch files r line).router.committed = r.committed) := by
  refine ⟨fun p hp => ?_, fun c args hfind hc => ?_⟩
  · cases hcall : (Command.registry files).called? line with
    | none =>
      obtain ⟨hrouter, houtput, hresult⟩ := dispatch_of_not_called (r := r) hcall
      rw [hresult] at hp
      obtain rfl := Result.presented.inj hp
      exact ⟨hrouter, nofun, fun _ => houtput⟩
    | some call =>
      obtain ⟨c, args⟩ := call
      obtain ⟨hrouter, houtput⟩ := dispatch_of_failed h.synced hcall hp
      refine ⟨hrouter, fun args' hload => ?_, fun hload => ?_⟩
      · obtain ⟨rfl, rfl⟩ := Prod.mk.inj (Option.some.inj hload)
        have hdots : "'...\n" = "'..." ++ "\n" := by decide
        rw [houtput, if_pos rfl, Command.announcement, Command.line, hdots]
        simp only [String.append_assoc]
      · rw [houtput, if_neg fun hc => hload args (by rw [hc]), String.empty_append]
  · obtain ⟨request, hedit⟩ := edit?_of_editing hc args
    rcases dispatch_of_edit (r := r) (called?_of_find? hfind) hedit with
      ⟨hdone, ⟨c', -, hne, -, hrouter⟩, houtput⟩ | ⟨⟨p, hp⟩, hrouter⟩
    · rw [hdone, hrouter]
      exact ⟨⟨fun _ => hne, fun _ => rfl⟩, fun _ => ⟨houtput, rfl, rfl, rfl⟩⟩
    · rw [hp, hrouter]
      exact ⟨⟨nofun, fun hne => absurd rfl hne⟩, nofun⟩

/-- Of a router with an edit that waits for a commit: a file that is not there is announced and
presented as missing and changes nothing; an interface that is then disabled shows in the staged
copy and not in the committed one. -/
theorem failed_line_changes_nothing_of_missing_file :
    let files : Storage.Files := fun _ => .missing
    let r := (Router.new "edge" [.fresh "eth0" ⟨.replicate 6 2⟩]).run [.setMode .configuration,
      .edit (.setAddress "eth0" ⟨.ofNat 0x0A000001, 24⟩)]
    let loading := dispatch files r "load gone"
    let disabling := dispatch files r "set interfaces ethernet eth0 disable"
    loading.router = r ∧
      loading.output = "Loading configuration from 'gone'...\n" ++
        "Cannot read configuration file: Configuration file not found: gone\n" ∧
      disabling.router.staged ≠ r.staged ∧ disabling.output = "[edit]\n" ∧
      disabling.router.committed = r.committed := by
  intro files r loading disabling
  have hr : Reaches (.new "edge" [.fresh "eth0" ⟨.replicate 6 2⟩]) r := Reaches.refl.run _
  have hcall : (Command.registry files).called? "load gone" = some (.load, [("file", "gone")]) := by
    decide +kernel
  have hpresented : loading.result = .presented
      ⟨"Cannot read configuration file: Configuration file not found: gone", .error⟩ := by
    decide +kernel
  have hfind : (Command.registry files).find? "set interfaces ethernet eth0 disable" =
      some (.disableInterface, [("interface", "eth0")]) := by decide +kernel
  have hdone : disabling.result = .done := by decide +kernel
  obtain ⟨hunchanged, houtput, -⟩ :=
    (failed_line_changes_nothing hr files "load gone").1 _ hpresented
  obtain ⟨hiff, hmarker⟩ :=
    (failed_line_changes_nothing hr files "set interfaces ethernet eth0 disable").2 _ _ hfind
      (by decide)
  obtain ⟨hedit, -, -, hcommitted⟩ := hmarker hdone
  refine ⟨hunchanged, (houtput _ hcall).trans ?_, hiff.mp hdone, hedit, hcommitted⟩
  decide +kernel

end RouterConsole.Shell
