import ScriptStack.Fault.Family
import ScriptStack.Proofs.Decimal.Writing
import ScriptStack.Stack.Basic

/-! How faults come about: computations in a row that succeed, and faults whose text is too long to be
written. -/
namespace ScriptStack

section Rows

variable {α β ε : Type}

theorem exists_of_bind_eq_ok {x : Except ε α} {f : α → Except ε β} {b : β}
    (h : x >>= f = .ok b) : ∃ a, x = .ok a ∧ f a = .ok b := by
  cases x with
  | ok a => exact ⟨a, rfl, h⟩
  | error fault => cases h

theorem Misuse.lift_eq_ok {x : Except Misuse α} {a : α} : lift x = .ok a ↔ x = .ok a := by
  cases x <;> simp [lift]

end Rows

namespace Fault

variable {fault : Fault}

theorem raised_of_isSome (h : fault.text?.isSome = true) : fault.raised = fault := if_pos h

theorem raised_of_not_isSome (h : fault.text?.isSome = false) :
    fault.raised = .misuse .badValue := by
  rw [raised, h]
  rfl

theorem raised_cases (fault : Fault) :
    (fault.text?.isSome = true ∧ fault.raised = fault) ∨
      (fault.text? = none ∧ fault.raised = .misuse .badValue) := by
  cases h : fault.text? with
  | some text => exact .inl ⟨rfl, raised_of_isSome (by rw [h]; rfl)⟩
  | none => exact .inr ⟨rfl, raised_of_not_isSome (by rw [h]; rfl)⟩

theorem family?_raised_ne {family : Family} (h : fault.family? ≠ some family) :
    fault.raised.family? ≠ some family := by
  obtain ⟨-, hraised⟩ | ⟨-, hraised⟩ := fault.raised_cases
  · rw [hraised]
    exact h
  · rw [hraised]
    intro hnone
    cases hnone

theorem raised_underflow (shortage : Shortage) (n : Int) (available : Nat) :
    (underflow shortage (.integer n) available).raised =
      if Decimal.isWritable n then underflow shortage (.integer n) available
      else misuse .badValue := by
  rw [raised, text?, Option.isSome_map, Quantity.text?, Decimal.isSome_text?]

theorem raised_numberTooLong (size : Nat) (limit : Int) :
    (numberTooLong size (.integer limit)).raised =
      if Decimal.isWritable limit then numberTooLong size (.integer limit)
      else misuse .badValue := by
  rw [raised, text?, Option.isSome_map, Quantity.text?, Decimal.isSome_text?]

theorem raised_numberOverflow (v : Int) : (numberOverflow v).raised =
    if Decimal.isWritable v then numberOverflow v else misuse .badValue := by
  rw [raised, text?, Option.isSome_map, Decimal.isSome_text?]

theorem raised_numberTooWide (v : Int) : (numberTooWide v).raised =
    if Decimal.isWritable v then numberTooWide v else misuse .badValue := by
  rw [raised, text?, Option.isSome_map, Decimal.isSome_text?]

end Fault

theorem Family.not_stops_misuse {α : Type} (family : Family) (cause : Misuse) :
    ¬ family.Stops (.error (.misuse cause) : Except Fault α) := by
  rw [stops_error]
  intro h
  cases h

namespace Attempt

variable {α β : Type}

theorem result_map (f : α → β) (x : Attempt α) : (x.map f).result = x.result.map f := rfl

@[simp] theorem result_raise (fault : Fault) :
    (raise fault : Attempt α).result = .error fault.raised := rfl

end Attempt

/-- Refusing raises the fault, written or not; it is logged only if it can be written. -/
@[simp] theorem Stack.result_refuse {α : Type} (fault : Fault) :
    (refuse fault : Attempt α).result = .error fault.raised := by
  cases h : fault.text? with
  | some text =>
    rw [refuse, h]
    rfl
  | none =>
    rw [refuse, h, Fault.raised, h]
    rfl

theorem Content.toNumber_of_above {v : Int} (hv : Limits.maxSigned < v) (minimal : Bool) :
    (number v).toNumber minimal =
      .error (if Decimal.isWritable v then .numberOverflow v else .misuse .badValue) := by
  rw [toNumber, if_pos hv, Fault.raised_numberOverflow]

end ScriptStack
