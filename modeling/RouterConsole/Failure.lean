import RouterConsole.Config.Error

/-!
# Failures

What can go wrong for an operator: the router refuses an operation, a configuration is refused, or
a failure is stated by someone else in words of his own. All fall into the same categories, by which
they are presented.
-/
namespace RouterConsole

inductive Category where
  | general
  | wrongMode
  | duplicate
  /-- What was to be changed is not there; the subject says what kind of thing that is. -/
  | notFound (subject : String)
  | noSuchInterface
  | unusableAddress
  | badValue
  | nothingToCommit
  | uncommittedChanges
  | unsupported
  | configuration
  deriving DecidableEq, Repr

def RouterError.category : RouterError → Category
  | wrongMode _ | clearOutsideConfiguration => .wrongMode
  | routeExists | addressExists | alreadyDisabled _ => .duplicate
  | noRouteToDelete | noSuchRoute | notDisabled _ => .notFound "node"
  | noAddressToDelete => .notFound "value"
  | noSuchInterface _ => .noSuchInterface
  | unusableAddress _ _ _ => .unusableAddress
  | badValue _ _ => .badValue
  | nothingToCommit => .nothingToCommit
  | uncommittedChanges => .uncommittedChanges
  | saveUnsupported => .unsupported

inductive Failure where
  | router (error : RouterError)
  | configuration (error : Config.Error)
  | stated (category : Category) (text : String)
  deriving DecidableEq

namespace Failure

def category : Failure → Category
  | router e => e.category
  | configuration _ => .configuration
  | stated c _ => c

def message : Failure → String
  | router e => e.message
  | configuration e => e.message
  | stated _ t => t

end Failure

end RouterConsole
