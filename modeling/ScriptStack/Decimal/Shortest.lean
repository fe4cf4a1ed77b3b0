import ScriptStack.Decimal.Binary64

/-! The shortest decimal that reads back as a given binary number. -/
namespace ScriptStack

structure Decimal where
  coefficient : Nat
  exponent : Int
  deriving DecidableEq, Repr

namespace Binary64

def quotient (mantissa : Nat) (exponent : Int) : Nat × Nat :=
  if 0 ≤ exponent then (mantissa <<< exponent.toNat, 1) else (mantissa, 1 <<< (-exponent).toNat)

def overPower (num den : Nat) (exponent : Int) : Nat × Nat :=
  if 0 ≤ exponent then (num, den * Decimal.power exponent.toNat)
  else (num * Decimal.power (-exponent).toNat, den)

/-- The two neighbours of the number on one decimal grid that read back as it, the nearer one
first; of two equally near the even one is first. -/
def readBack (mantissa : Nat) (e : Int) (grid : Int) : List Nat :=
  let (num, den) := quotient mantissa e
  let (n, d) := overPower num den grid
  let below := n / d
  let nearest := roundDiv n d
  let other := if nearest = below then below + 1 else below
  [nearest, other].filter fun c => ofDecimal false c grid == .finite false mantissa e

def searchShortest (mantissa : Nat) (e : Int) : (fuel : Nat) → (grid : Int) → Decimal
  | 0, grid => ⟨0, grid⟩
  | fuel + 1, grid =>
    match readBack mantissa e grid with
    | c :: _ => ⟨c, grid⟩
    | [] => searchShortest mantissa e fuel (grid - 1)

/-- The coarsest grid with a decimal that reads back has the fewest digits. Twenty grids suffice:
the first is at most two above the leading digit, and seventeen digits always read back. -/
def shortest (mantissa : Nat) (e : Int) : Decimal :=
  let (num, den) := quotient mantissa e
  let start : Int := (Nat.toDigits 10 num).length - (Nat.toDigits 10 den).length + 1
  if mantissa = 0 then ⟨0, 0⟩ else searchShortest mantissa e 21 start

end Binary64

end ScriptStack
