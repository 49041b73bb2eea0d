import RouterConsole.Proofs.Shell.Matching
import RouterConsole.Proofs.Shell.Reachable

/-!
# Lines one after the other

An operator sends lines, and each is dispatched to the router that the one before it left. A line
publishes if it calls the command that commits or the one that loads. Without such a line the
committed copy stays as it is, and an operator who then leaves and discards has changed nothing.
-/
namespace RouterConsole.Shell

variable {files : Storage.Files} {r : Router} {line : String} {c : Command} {args : Arguments}

/-- The router after some lines, whatever each of them comes to. -/
def sent (files : Storage.Files) (r : Router) (lines : List String) : Router :=
  lines.foldl (fun r line => (dispatch files r line).router) r

@[simp] theorem sent_nil (files : Storage.Files) (r : Router) : sent files r [] = r := rfl

@[simp] theorem sent_cons (files : Storage.Files) (r : Router) (line : String)
    (lines : List String) :
    sent files r (line :: lines) = sent files (dispatch files r line).router lines := rfl

/-- What some lines come to, one after the other. -/
def answers (files : Storage.Files) (r : Router) : List String → List Result
  | [] => []
  | line :: lines =>
    (dispatch files r line).result :: answers files (dispatch files r line).router lines

theorem sent_append (files : Storage.Files) (r : Router) (lines lines' : List String) :
    sent files r (lines ++ lines') = sent files (sent files r lines) lines' := List.foldl_append

theorem answers_append (files : Storage.Files) (r : Router) (lines lines' : List String) :
    answers files r (lines ++ lines') =
      answers files r lines ++ answers files (sent files r lines) lines' := by
  induction lines generalizing r with
  | nil => rfl
  | cons line lines ih => exact congrArg (_ :: ·) (ih _)

theorem Reaches.sent {start : Router} (h : Reaches start r) (files : Storage.Files)
    (lines : List String) : Reaches start (sent files r lines) := by
  induction lines generalizing r with
  | nil => exact h
  | cons line lines ih => exact ih (h.line files line)

/-- Whether a line calls a command that can replace the committed configuration. -/
def Publishes (files : Storage.Files) (line : String) : Prop :=
  ∃ args, (Command.registry files).called? line = some (.commit, args) ∨
    (Command.registry files).called? line = some (.load, args)

/-- The lines that publish, by their words: the keyword that commits, or so much of it that no other
command starts alike, and the one that loads with the name of a file. -/
theorem publishes_iff : Publishes files line ↔
    (∃ w ∈ ["com", "comm", "commi", "commit"], Text.words line = [w]) ∨
      ∃ file, Text.words line = ["load", file] := by
  simp only [Publishes, Command.called?_eq, Command.calls_commit_iff, Command.calls_load_iff]
  constructor
  · rintro ⟨args, ⟨-, h⟩ | ⟨file, -, h⟩⟩
    · exact .inl h
    · exact .inr ⟨file, h⟩
  · rintro (h | ⟨file, h⟩)
    · exact ⟨[], .inl ⟨rfl, h⟩⟩
    · exact ⟨_, .inr ⟨file, rfl, h⟩⟩

theorem Command.Asks.publishes {op : Operation} (h : Asks c args op) (hc : c ≠ .commit) :
    op.publishes = false := by
  cases h with
  | commit => exact absurd rfl hc
  | configure | discard | exit | exitDiscard | edit => rfl

/-- Only two commands can change the committed copy. -/
theorem Command.Ran.committed {x : Execution} (h : Ran files c args r x) (hc : c ≠ .commit)
    (hl : c ≠ .load) : x.router.committed = r.committed := by
  cases h with
  | shown | refused | left => rfl
  | performed answer hop hp => exact Router.committed_of_perform hp (hop.publishes hc)
  | loaded hload => exact absurd hload hl

theorem committed_dispatch (h : ¬Publishes files line) :
    (dispatch files r line).router.committed = r.committed := by
  cases hcall : (Command.registry files).called? line with
  | none => rw [(dispatch_of_not_called hcall).1]
  | some call =>
    obtain ⟨c, args⟩ := call
    rw [(dispatch_of_called hcall).1]
    refine (Command.execute_ran files c args r).committed ?_ ?_
    · rintro rfl
      exact h ⟨args, .inl hcall⟩
    · rintro rfl
      exact h ⟨args, .inr hcall⟩

theorem committed_sent {lines : List String} (h : ∀ line ∈ lines, ¬Publishes files line) :
    (sent files r lines).committed = r.committed := by
  induction lines generalizing r with
  | nil => rfl
  | cons line lines ih =>
    have hfirst := committed_dispatch (r := r) (h line List.mem_cons_self)
    exact (ih fun l hl => h l (List.mem_cons_of_mem line hl)).trans hfirst

/-- What the configuration commands write is a function of the committed copy. -/
theorem output_of_showConfiguration {format : Config.Format} {r' : Router}
    (h : (Command.registry files).called? line = some (.showConfiguration format, args))
    (hc : r'.committed = r.committed) :
    (dispatch files r' line).output = (dispatch files r line).output := by
  have written : ∀ s : Router, (dispatch files s line).output =
      ((Command.showConfiguration format).execute files args s).output := by
    intro s
    have hfinished : ((Command.registry files).run (.showConfiguration format) args s).ending =
        .finished := rfl
    rw [(dispatch_of_called h).2.1]
    exact (invoke_of_finished hfinished).2
  rw [written, written]
  simp only [Command.execute, hc]

/-- Who leaves by force gets back the router that the session started from, if nothing was
published. -/
theorem dispatch_exitDiscard {name : String} {interfaces : List Interface} {r' : Router}
    (h : Reaches (.new name interfaces) r) (h' : Reaches (.new name interfaces) r')
    (hm : r.mode = .operational) (hc : r'.committed = r.committed) (files : Storage.Files) :
    (dispatch files r' "exit discard").router = r := by
  have hcall : (Command.registry files).called? "exit discard" = some (.exitDiscard, []) :=
    Command.called?_of_words (by decide +kernel)
  have left : ∀ s : Router, Reaches (.new name interfaces) s → s.forceMode .operational =
      ⟨name, interfaces, s.committed, s.committed, .operational, false⟩ := by
    intro s hs
    rw [hs.synced.forceMode_operational, hs.name_eq, hs.framed.initial]
  calc (dispatch files r' "exit discard").router
      = r'.forceMode .operational := (dispatch_of_called hcall).1
    _ = r.forceMode .operational := by rw [left r' h', left r h, hc]
    _ = r := Router.forceMode_of_operational hm

/-- At every router that operations, loads and lines lead to: lines of which none calls the command
that commits or the one that loads keep the committed interfaces and routes as they are after each
of them, so that both ways to show the configuration write the same throughout. If nothing was
being edited before, leaving by force afterwards gives the same router again, with its mode, the
mark of waiting edits and both copies. -/
theorem unpublished_lines_leave_no_trace {name : String} {interfaces : List Interface}
    (h : Reaches (.new name interfaces) r) (files : Storage.Files) {lines : List String}
    (hl : ∀ line ∈ lines, ¬Publishes files line) :
    (∀ before, before <+: lines →
        (sent files r before).committed.interfaces = r.committed.interfaces ∧
          (sent files r before).committed.routes = r.committed.routes ∧
          ∀ line format args,
            (Command.registry files).called? line = some (.showConfiguration format, args) →
            (dispatch files (sent files r before) line).output =
              (dispatch files r line).output) ∧
      (r.mode = .operational →
        (dispatch files (sent files r lines) "exit discard").router = r) := by
  have kept : ∀ before, before <+: lines → (sent files r before).committed = r.committed :=
    fun before hb => committed_sent fun line hline => hl line (hb.subset hline)
  refine ⟨fun before hb => ?_, fun hm => ?_⟩
  · have hc := kept before hb
    exact ⟨by rw [hc], by rw [hc], fun _ _ _ hcall => output_of_showConfiguration hcall hc⟩
  · exact dispatch_exitDiscard h (h.sent files lines) hm (kept lines List.prefix_rfl) files

/-- An abbreviated command, an edit and an abbreviation that two commands share: the configuration
is shown as before, and leaving by force undoes the edit. -/
theorem unpublished_lines_leave_no_trace_of_edit :
    let files : Storage.Files := fun _ => .missing
    let r := (Router.new "edge" [.fresh "eth0" ⟨.replicate 6 2⟩]).run [.setMode .configuration,
      .edit (.setAddress "eth0" ⟨.ofNat 0x0A000001, 24⟩), .commit, .setMode .operational]
    let lines := ["conf", "set interfaces ethernet eth0 disable", "co"]
    (sent files r lines).staged ≠ r.staged ∧
      (dispatch files (sent files r lines) "show configuration").output =
        (dispatch files r "show configuration").output ∧
      (dispatch files (sent files r lines) "exit discard").router = r := by
  intro files r lines
  have hr : Reaches (.new "edge" [.fresh "eth0" ⟨.replicate 6 2⟩]) r := Reaches.refl.run _
  have hheads : ∀ line ∈ lines,
      ∀ w ∈ ["com", "comm", "commi", "commit", "load"], (Text.words line).head? ≠ some w := by
    decide +kernel
  have hlines : ∀ line ∈ lines, ¬Publishes files line := by
    intro line hline hp
    rcases publishes_iff.mp hp with ⟨w, hw, hwords⟩ | ⟨file, hwords⟩
    · exact hheads line hline w (List.mem_append_left ["load"] hw) (by rw [hwords]; rfl)
    · exact hheads line hline "load" (by decide) (by rw [hwords]; rfl)
  have hcall : (Command.registry files).called? "show configuration" =
      some (.showConfiguration .hierarchical, []) := Command.called?_of_words (by decide +kernel)
  obtain ⟨hkept, hundone⟩ := unpublished_lines_leave_no_trace hr files hlines
  obtain ⟨-, -, hshown⟩ := hkept lines List.prefix_rfl
  exact ⟨by decide +kernel, hshown _ _ _ hcall, hundone (by decide +kernel)⟩

end RouterConsole.Shell
