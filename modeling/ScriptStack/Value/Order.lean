import ScriptStack.Value.Equality

/-! The order of values: of numbers, of texts, of byte strings, and of lists item by item. -/
namespace ScriptStack

namespace Relation

def admits : Relation → Ordering → Bool
  | eq, o => o == .eq
  | ne, o => o != .eq
  | lt, o => o == .lt
  | le, o => o != .gt
  | gt, o => o == .gt
  | ge, o => o != .lt

end Relation

namespace Value

def placeOf : Quantity → Quantity → Option Ordering
  | .real x, .real y => x.compare? y
  | .real x, .integer n => x.compareInt? n
  | .real x, .flag b => x.compareInt? (Quantity.flagValue b)
  | .real x, .number n => x.compareInt? n
  | .integer m, q => (q.compareInt? m).map Ordering.swap
  | .flag b, q => (q.compareInt? (Quantity.flagValue b)).map Ordering.swap
  | .number m, q => (q.compareInt? m).map Ordering.swap

/-- The bytes of two values that have an order: memory has one only beside a byte array. -/
def orderedBytes? (h : Heap) : Value → Value → Option (Bytes × Bytes)
  | bytes x, bytes y => some (x, y)
  | bytes x, byteArray b => some (x, h.read b)
  | byteArray a, b => b.octets? h |>.map fun y => (h.read a, y)
  | memory x, byteArray b => some (x, h.read b)
  | _, _ => none

/-- The order of values that are not lists: of texts and of bytes that of a dictionary. Values of
other sorts, or of two sorts, have none. -/
def relatePlain (σ : Store) (r : Relation) (a b : Value) : Except Fault Bool :=
  match a, b with
  | text s, text t => .ok (r.admits (compare s t))
  | a, b =>
    match orderedBytes? σ.heap a b, a.quantity, b.quantity with
    | some (x, y), _, _ => .ok (r.admits (compare x y))
    | none, .ok x, .ok y => .ok ((placeOf x y).any r.admits)
    | none, _, _ => .error (.misuse .wrongKind)

def isOrder : Relation → Bool
  | .eq => false
  | .ne => false
  | _ => true

mutual

def relate (σ : Store) (r : Relation) : Value → Value → Except Fault Bool
  | number n, b => n.relate r (b.comparand σ.heap)
  | list xs, list ys =>
    if isOrder r then relateItems σ r xs ys
    else (same σ (list xs) (list ys)).map fun b => if r = .eq then b else !b
  | a, b =>
    match b with
    | number n => n.relate r.converse (a.comparand σ.heap)
    | b =>
      if isOrder r then relatePlain σ r a b
      else (same σ a b).map fun b => if r = .eq then b else !b

def relateItems (σ : Store) (r : Relation) : List Value → List Value → Except Fault Bool
  | x :: xs, y :: ys => do
    if x.identical y then relateItems σ r xs ys
    else if ← same σ x y then relateItems σ r xs ys
    else relate σ r x y
  | xs, ys => .ok (r.holds xs.length ys.length)

end

end Value

end ScriptStack
