/-!
# Interface status

Two independent states make the status of an interface: the administrative one, which the operator
sets, and that of the link, which the cabling decides. Each is written as one letter.
-/
namespace RouterConsole

/-- What the operator wants of an interface. -/
inductive AdminState where
  | up
  | down
  deriving DecidableEq, Repr

/-- Whether the other end of the cable answers. -/
inductive LinkState where
  | up
  | down
  deriving DecidableEq, Repr

inductive StatusFault where
  | admin (code : String)
  | link (code : String)
  deriving DecidableEq, Repr

def StatusFault.message : StatusFault → String
  | .admin c => "Invalid admin state: " ++ c
  | .link c => "Invalid link state: " ++ c

def AdminState.code : AdminState → String
  | .up => "u"
  | .down => "A"

def AdminState.ofCode (code : String) : Except StatusFault AdminState :=
  if code = AdminState.up.code then .ok .up
  else if code = AdminState.down.code then .ok .down
  else .error (.admin code)

def LinkState.code : LinkState → String
  | .up => "u"
  | .down => "D"

def LinkState.ofCode (code : String) : Except StatusFault LinkState :=
  if code = LinkState.up.code then .ok .up
  else if code = LinkState.down.code then .ok .down
  else .error (.link code)

structure InterfaceStatus where
  admin : AdminState := .up
  link : LinkState := .down
  deriving DecidableEq, Repr

namespace InterfaceStatus

/-- Reads both letters, the administrative one first. -/
def ofCodes (admin link : String) : Except StatusFault InterfaceStatus := do
  let a ← AdminState.ofCode admin
  return ⟨a, ← LinkState.ofCode link⟩

def withAdmin (s : InterfaceStatus) (a : AdminState) : InterfaceStatus := { s with admin := a }

def withLink (s : InterfaceStatus) (l : LinkState) : InterfaceStatus := { s with link := l }

/-- An interface carries traffic only when both states are up. -/
def isOperational (s : InterfaceStatus) : Bool := s.admin == .up && s.link == .up

def text (s : InterfaceStatus) : String := s.admin.code ++ "/" ++ s.link.code

end InterfaceStatus

end RouterConsole
