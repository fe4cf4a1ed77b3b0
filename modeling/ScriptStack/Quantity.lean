import ScriptStack.Decimal.Text
import ScriptStack.Number.Encoding

/-! What a caller may give as a count or as a limit. -/
namespace ScriptStack

inductive Quantity where
  | integer (n : Int)
  | flag (b : Bool)
  | real (x : Binary64)
  | number (value : Int)
  deriving DecidableEq, Repr

namespace Quantity

def flagValue (b : Bool) : Int := if b then 1 else 0

/-- The place of a quantity against an integer; the number that is none lies nowhere. -/
def compareInt? : Quantity → Int → Option Ordering
  | integer i, n => some (compare i n)
  | flag b, n => some (compare (flagValue b) n)
  | real x, n => x.compareInt? n
  | number v, n => some (compare v n)

def below (q : Quantity) (n : Int) : Bool := q.compareInt? n == some .lt

def above (q : Quantity) (n : Int) : Bool := q.compareInt? n == some .gt

def flagText (b : Bool) : String := if b then "True" else "False"

/-- A script number is shown by the bytes that encode it. -/
def text? : Quantity → Option String
  | integer i => Decimal.text? i
  | flag b => some (flagText b)
  | real x => some x.render
  | number v => some (Number.encode v).hex

theorem compare_of_lt {i n : Int} (h : i < n) : compare i n = .lt := by
  simp only [compare, compareOfLessAndEq, if_pos h]

theorem compare_self (i : Int) : compare i i = .eq := by
  simp only [compare, compareOfLessAndEq, if_neg (Int.lt_irrefl i), if_true]

theorem compare_of_gt {i n : Int} (h : n < i) : compare i n = .gt := by
  have hlt : ¬ i < n := by omega
  have hne : ¬ i = n := by omega
  simp only [compare, compareOfLessAndEq, if_neg hlt, if_neg hne]

theorem below_integer (i n : Int) : below (integer i) n = decide (i < n) := by
  rcases Int.lt_trichotomy i n with h | rfl | h
  · rw [below, compareInt?, compare_of_lt h, decide_eq_true h]; rfl
  · rw [below, compareInt?, compare_self, decide_eq_false (Int.lt_irrefl i)]; rfl
  · rw [below, compareInt?, compare_of_gt h, decide_eq_false (by omega)]; rfl

theorem above_integer (i n : Int) : above (integer i) n = decide (n < i) := by
  rcases Int.lt_trichotomy i n with h | rfl | h
  · rw [above, compareInt?, compare_of_lt h, decide_eq_false (by omega)]; rfl
  · rw [above, compareInt?, compare_self, decide_eq_false (Int.lt_irrefl i)]; rfl
  · rw [above, compareInt?, compare_of_gt h, decide_eq_true h]; rfl

end Quantity

end ScriptStack
