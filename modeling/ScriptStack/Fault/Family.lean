import ScriptStack.Fault

/-! The families of faults: each is a special case of the ones above it. -/
namespace ScriptStack

inductive Family where
  | any | stack | underflow | contract | overflow | number | tooLong | notMinimal
  deriving DecidableEq, Repr

namespace Family

def all : List Family :=
  [overflow, notMinimal, number, tooLong, contract, stack, underflow, any]

def name : Family → String
  | any => "ScriptExecError"
  | stack => "StackError"
  | underflow => "StackUnderflowError"
  | contract => "StackContractError"
  | overflow => "NumericOverflowError"
  | number => "ScriptNumError"
  | tooLong => "ScriptNumTooLongError"
  | notMinimal => "NonMinimalEncodingError"

def ofName? (name : String) : Option Family := all.find? (·.name == name)

/-- A family and all that contain it. A number too long is a fault of the codec and an overflow. -/
def lineage : Family → List Family
  | any => [any]
  | stack => [stack, any]
  | underflow => [underflow, stack, any]
  | contract => [contract, stack, any]
  | overflow => [overflow, any]
  | number => [number, any]
  | tooLong => [tooLong, number, overflow, any]
  | notMinimal => [notMinimal, number, any]

def isA (family above : Family) : Bool := family.lineage.contains above

def lineageNames (family : Family) : List String :=
  ((all.filter family.isA).map name).mergeSort fun a b => decide (a ≤ b)

end Family

def Fault.family? : Fault → Option Family
  | .underflow .. => some .underflow
  | .offsetNotNegative _ => some .contract
  | .indexOutOfRange .. => some .contract
  | .numberTooWide _ => some .contract
  | .itemTooWide _ => some .contract
  | .numberOverflow _ => some .overflow
  | .numberTooLong .. => some .tooLong
  | .notMinimal _ => some .notMinimal
  | .notComparable _ => some .number
  | .notInteger => some .number
  | .numberExpected _ => none
  | .bufferExpected _ => none
  | .entryExpected _ => none
  | .misuse _ => none

/-- Whether a computation ends in a fault of this very family. -/
def Family.Stops {α : Type} (family : Family) (x : Except Fault α) : Prop :=
  ∃ fault, x = .error fault ∧ fault.family? = some family

@[simp] theorem Family.stops_error {α : Type} {family : Family} {fault : Fault} :
    family.Stops (.error fault : Except Fault α) ↔ fault.family? = some family := by
  simp [Stops]

@[simp] theorem Family.not_stops_ok {α : Type} {family : Family} {a : α} :
    ¬ family.Stops (.ok a) := by
  simp [Stops]

instance {α : Type} (family : Family) (x : Except Fault α) : Decidable (family.Stops x) :=
  match x with
  | .ok _ => .isFalse Family.not_stops_ok
  | .error _ => decidable_of_iff _ Family.stops_error.symm

@[simp] theorem Family.stops_map {α β : Type} {family : Family} {x : Except Fault α} {f : α → β} :
    family.Stops (x.map f) ↔ family.Stops x := by
  cases x <;> simp [Except.map]

structure Notice (α : Type) where
  family : Family
  text : String
  required : Option α
  available : Option α
  deriving DecidableEq, Repr

structure NamedDepths (α : Type) where
  required : Option (Option α)
  available : Option (Option α)

def NamedDepths.unnamed {α : Type} (depths : NamedDepths α) : Bool :=
  depths.required.isNone && depths.available.isNone

def Notice.shortageText? {α : Type} (shown? : α → Option String) (base : String) :
    Option α → Option α → Option String
  | some required, some available => (shown? required).bind fun required =>
    (shown? available).map fun available => base ++ Fault.depthsText required available
  | _, _ => some base

/-- Only a shortage takes depths. The message and the depths may be of any sort that has a text, and
are refused if that cannot be written. -/
def Notice.make {α : Type} (shown? : α → Option String) (family : Family) (message : Option α)
    (depths : NamedDepths α) : Except Misuse (Notice α) :=
  let base := if family = .underflow then Shortage.depth.text else ""
  let message := message.elim (some base) shown?
  if family = .underflow then
    let required := depths.required.join
    let available := depths.available.join
    let text := message.bind fun base => Notice.shortageText? shown? base required available
    text.elim (.error .badValue) fun text => .ok ⟨family, text, required, available⟩
  else if depths.unnamed then
    message.elim (.error .badValue) fun text => .ok ⟨family, text, none, none⟩
  else .error .wrongKind

end ScriptStack
