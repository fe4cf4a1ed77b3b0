import Mathlib.Algebra.Group.Nat.Defs
import ScriptStack.Decimal.Text

/-! Which integers can be written: it depends on their size alone, and only huge ones cannot. -/
namespace ScriptStack.Decimal

theorem isWritable_iff {v : Int} : isWritable v = true ↔ v.natAbs < overlong := decide_eq_true_iff

theorem isWritable_neg (v : Int) : isWritable (-v) = isWritable v := by
  rw [isWritable, isWritable, Int.natAbs_neg]

theorem isWritable_overlong : isWritable overlong = false := decide_eq_false (Nat.lt_irrefl _)

theorem le_overlong : 10 ^ 20 ≤ overlong := by
  have hpow : ∀ k, 20 ≤ k → 10 ^ 20 ≤ power k := fun _ => Nat.pow_le_pow_right (by decide)
  rw [overlong_eq]
  exact hpow longestInteger (by decide)

theorem isWritable_of_lt {v : Int} (hv : v.natAbs < 10 ^ 20) : isWritable v = true :=
  isWritable_iff.mpr (Nat.lt_of_lt_of_le hv le_overlong)

theorem isSome_text? (v : Int) : (text? v).isSome = isWritable v := by
  rw [text?]
  cases isWritable v <;> rfl

theorem text?_of_isWritable {v : Int} (hv : isWritable v = true) :
    text? v = some (integerText v) := if_pos hv

theorem text?_of_lt {v : Int} (hv : v.natAbs < 10 ^ 20) : text? v = some (integerText v) :=
  text?_of_isWritable (isWritable_of_lt hv)

theorem text?_of_not_isWritable {v : Int} (hv : isWritable v = false) : text? v = none := by
  rw [text?, hv]
  rfl

theorem text?_eq_none_iff {v : Int} : text? v = none ↔ isWritable v = false := by
  rw [text?]
  cases isWritable v <;> simp

end ScriptStack.Decimal
