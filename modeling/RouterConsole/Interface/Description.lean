import RouterConsole.Interface.Basic

/-!
# Building interfaces from descriptions

A description names the fields of an interface as they were written down. Every field is checked,
in a fixed order, and all faults are reported together.
-/
namespace RouterConsole

open IPv4 (InterfaceAddress)

inductive FieldProblem where
  | missing
  | emptyText
  | notMacAddress
  | below (least : Int)
  | above (greatest : Int)
  | notAddress
  | notInterfaceAddress
  | unchangeable
  | notRouter
  | unknownTag (tag : String)
  | noTag
  /-- A rule of the domain itself is broken. -/
  | rejected (reason : String)
  deriving DecidableEq, Repr

def FieldProblem.message : FieldProblem → String
  | .missing => "Field required"
  | .emptyText => "String should have at least 1 character"
  | .notMacAddress =>
    "String should match pattern '^([0-9a-f]\x7b2\x7d:)\x7b5\x7d[0-9a-f]\x7b2\x7d$'"
  | .below n => "Input should be greater than or equal to " ++ toString n
  | .above n => "Input should be less than or equal to " ++ toString n
  | .notAddress => "Input is not a valid IPv4 address"
  | .notInterfaceAddress => "Input is not a valid IPv4 interface"
  | .unchangeable => "Field is frozen"
  | .notRouter => "Input should be 'router'"
  | .unknownTag t =>
    "Input tag '" ++ t ++ "' found using 'kind' does not match any of the expected tags: " ++
      "'router', 'switch-port', 'host'"
  | .noTag => "Unable to extract tag using discriminator 'kind'"
  | .rejected r => "Value error, " ++ r

/-- The faults of a description: the place of each, empty for the description as a whole, and what
is wrong there. -/
structure ValidationError where
  faults : List (String × FieldProblem)
  deriving DecidableEq, Repr

namespace ValidationError

def single (place : String) (problem : FieldProblem) : ValidationError := ⟨[(place, problem)]⟩

def message (e : ValidationError) : String :=
  String.intercalate "; " (e.faults.map fun f => f.1 ++ ": " ++ f.2.message)

/-- The same faults, each in a field of the named part. -/
def inside (part : String) (e : ValidationError) : ValidationError :=
  ⟨e.faults.map fun f => (part ++ "." ++ f.1, f.2)⟩

end ValidationError

/-- The check of one field: its value or what is wrong with it. -/
abbrev Checked (α : Type) := Except FieldProblem α

def Checked.fault {α : Type} (place : String) : Checked α → List (String × FieldProblem)
  | .ok _ => []
  | .error p => [(place, p)]

def checkText : Option String → Checked String
  | none => .error .missing
  | some s => if s.isEmpty then .error .emptyText else .ok s

def checkRange (least greatest value : Int) : Checked Nat :=
  if value < least then .error (.below least)
  else if greatest < value then .error (.above greatest)
  else .ok value.toNat

theorem checkRange_eq_ok_iff {least greatest value : Int} {n : Nat} :
    checkRange least greatest value = .ok n ↔
      least ≤ value ∧ value ≤ greatest ∧ value.toNat = n := by
  unfold checkRange
  split
  · simp only [reduceCtorEq, false_iff]
    omega
  · split
    · simp only [reduceCtorEq, false_iff]
      omega
    · simp only [Except.ok.injEq]
      omega

def checkInterfaceAddress : Option String → Checked (Option InterfaceAddress)
  | none => .ok none
  | some s => ((InterfaceAddress.parse s).map some).mapError fun _ => .notInterfaceAddress

/-- An absent hardware address is the one drawn for the interface. -/
def checkMac (drawn : MacAddress) : Option String → Checked MacAddress
  | none => .ok drawn
  | some s => (MacAddress.parse? s).elim (.error .notMacAddress) .ok

/-- An interface of the router as it was written down. -/
structure InterfaceDescription where
  kind : Option String := none
  name : Option String := none
  address : Option String := none
  mac : Option String := none
  status : InterfaceStatus := {}
  mtu : Option Int := none
  vrf : Option String := none
  description : Option String := none
  deriving DecidableEq, Repr

def InterfaceDescription.build (d : InterfaceDescription) (drawn : MacAddress) :
    Except ValidationError Interface :=
  let kind : Checked Unit :=
    if d.kind.all (· == "router") then .ok () else .error .notRouter
  let name := checkText d.name
  let address := checkInterfaceAddress d.address
  let mac := checkMac drawn d.mac
  let mtu := checkRange 68 65536 (d.mtu.getD (defaultMtu (d.name.getD "")))
  match kind, name, address, mac, mtu with
  | .ok _, .ok name, .ok address, .ok mac, .ok mtu =>
    .ok { name := name, address := address, mac := mac, status := d.status, mtu := mtu,
          vrf := d.vrf.getD "default", description := d.description }
  | _, _, _, _, _ =>
    .error ⟨kind.fault "kind" ++ name.fault "name" ++ address.fault "address" ++
      mac.fault "mac_address" ++ mtu.fault "mtu"⟩

def InterfaceDescription.buildPeer (d : InterfaceDescription) (kind : PeerKind)
    (drawn : MacAddress) : Except ValidationError PeerInterface :=
  let name := checkText d.name
  let address := checkInterfaceAddress d.address
  let mac := checkMac drawn d.mac
  match name, address, mac with
  | .ok name, .ok address, .ok mac =>
    .ok { kind := kind, name := name, address := address, mac := mac }
  | _, _, _ =>
    .error ⟨name.fault "name" ++ address.fault "address" ++ mac.fault "mac_address"⟩

/-- Builds the interface that a description of a neighbour names by its kind. -/
def InterfaceDescription.buildNeighbor (d : InterfaceDescription) (drawn : MacAddress) :
    Except ValidationError Neighbor :=
  let peer (kind : PeerKind) :=
    ((d.buildPeer kind drawn).map Neighbor.peer).mapError (·.inside kind.tag)
  match d.kind with
  | none => .error (.single "" .noTag)
  | some "router" => ((d.build drawn).map Neighbor.router).mapError (·.inside "router")
  | some "switch-port" => peer .switchPort
  | some "host" => peer .host
  | some tag => .error (.single "" (.unknownTag tag))

def Interface.renameRefused : ValidationError := .single "name" .unchangeable

end RouterConsole
