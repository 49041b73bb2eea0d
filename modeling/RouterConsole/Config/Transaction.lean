import RouterConsole.Router.Edit

/-!
# Transactions

A change that happens completely or not at all. A transaction starts from a wiped staged
configuration; if the change completes, the result is committed, and otherwise it is dropped. The
mode is restored in either case.
-/
namespace RouterConsole

namespace Router

/-- Enters a transaction: configuration mode with a wiped staged configuration. Edits that wait for
a commit would be lost, so with them there is no transaction. -/
def beginTransaction (r : Router) : Except RouterError Router := do
  if r.mode = .configuration ∧ r.dirty then throw .uncommittedChanges
  (← r.setMode .configuration).clear

/-- Commits what the transaction staged, or drops it if it cannot be committed. -/
def commitOrDiscard (r : Router) : Router × Option RouterError :=
  match r.commit with
  | .ok r => (r, none)
  | .error e =>
    match r.discard with
    | .ok r => (r, some e)
    | .error e => (r, some e)

/-- Drops what the transaction staged. -/
def rollBack (r : Router) : Router × Option RouterError :=
  match r.discard with
  | .ok r => (r, none)
  | .error e => (r, some e)

/-- Runs a change as a transaction. The failure is the change's own unless entering or leaving the
transaction fails. -/
def transaction {ε α : Type} (lift : RouterError → ε) (change : Router → Router × Except ε α)
    (r : Router) : Router × Except ε α :=
  match r.beginTransaction with
  | .error e => (r, .error (lift e))
  | .ok started =>
    let (changed, outcome) := change started
    let (ended, failure) := match outcome with
      | .ok _ => changed.commitOrDiscard
      | .error _ => changed.rollBack
    (ended.forceMode r.mode, (failure.map lift).elim outcome .error)

end Router

end RouterConsole
