/-! Integers as places in a sequence: a negative one counts from the end. -/
namespace ScriptStack.Index

def place? (size : Nat) (index : Int) : Option Nat :=
  if 0 ≤ index then (if index < size then some index.toNat else none)
  else if -index ≤ size then some (index + size).toNat else none

/-- The gap that an index means, moved to the nearer end where it lies outside. -/
def gap (size : Nat) (index : Int) : Nat :=
  if index < 0 then (index + size).toNat else min index.toNat size

theorem place?_eq_some_iff {size : Nat} {index : Int} {i : Nat} :
    place? size index = some i ↔ i < size ∧ (index = i ∨ index = i - size) := by
  unfold place?
  split <;> split <;> simp <;> omega

theorem place?_eq_none_iff {size : Nat} {index : Int} :
    place? size index = none ↔ index < -size ∨ size ≤ index := by
  unfold place?
  split <;> split <;> simp <;> omega

def fitsWord (index : Int) : Bool :=
  -0x8000000000000000 ≤ index && index < 0x8000000000000000

end ScriptStack.Index
