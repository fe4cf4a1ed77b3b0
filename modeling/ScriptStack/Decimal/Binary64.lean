/-! Binary floating point numbers of 53 significant bits, kept exactly. -/
namespace ScriptStack

def Decimal.power (n : Nat) : Nat := Nat.pow 10 n

/-- A finite number is `mantissa * 2 ^ exponent` with a sign. The mantissa is below `2 ^ 53` and,
unless the exponent is the least one, at least `2 ^ 52`, so each number has one form a sign. -/
inductive Binary64 where
  | finite (negative : Bool) (mantissa : Nat) (exponent : Int)
  | infinite (negative : Bool)
  | nan
  deriving DecidableEq, Repr

namespace Binary64

def leastExponent : Int := -1074

def greatestExponent : Int := 971

def signed (negative : Bool) (mantissa : Nat) : Int :=
  if negative then -(mantissa : Int) else mantissa

def compareScaled (s : Int) (e : Int) (n : Int) : Ordering :=
  if 0 ≤ e then compare (s <<< e.toNat) n else compare s (n <<< (-e).toNat)

def compareInt? : Binary64 → Int → Option Ordering
  | finite negative m e, n => some (compareScaled (signed negative m) e n)
  | infinite negative, _ => some (if negative then .lt else .gt)
  | nan, _ => none

def compare? : Binary64 → Binary64 → Option Ordering
  | finite s m e, finite t n f =>
    let least := min e f
    some (compare (signed s (m <<< (e - least).toNat)) (signed t (n <<< (f - least).toNat)))
  | finite _ _ _, infinite t => some (if t then .gt else .lt)
  | infinite s, finite _ _ _ => some (if s then .lt else .gt)
  | infinite s, infinite t => some (compare (signed s 1) (signed t 1))
  | _, _ => none

def same : Binary64 → Binary64 → Bool
  | finite s m e, finite t n f => (m == 0 && n == 0) || (s == t && m == n && e == f)
  | infinite s, infinite t => s == t
  | _, _ => false

def integer? : Binary64 → Option Int
  | finite negative m e =>
    if 0 ≤ e then some (signed negative (m <<< e.toNat))
    else if m % 1 <<< (-e).toNat = 0 then some (signed negative (m >>> (-e).toNat))
    else none
  | _ => none

def roundDiv (num den : Nat) : Nat :=
  let q := num / den
  let r := num % den
  if 2 * r < den then q
  else if den < 2 * r then q + 1
  else if q % 2 = 0 then q else q + 1

def scaledDiv (num den : Nat) (e : Int) : Nat :=
  if 0 ≤ e then roundDiv num (den <<< e.toNat) else roundDiv (num <<< (-e).toNat) den

/-- The number nearest to a quotient; beyond the greatest finite one it is infinite. The exponent
is chosen one too small at most, which the rounded mantissa then shows. -/
def ofQuotient (negative : Bool) (num den : Nat) : Binary64 :=
  if num = 0 ∨ den = 0 then .finite negative 0 leastExponent
  else
    let low := max leastExponent ((num.log2 : Int) - den.log2 - 53)
    let e := if 1 <<< 53 * 2 ≤ 2 * scaledDiv num den low then low + 1 else low
    let m := scaledDiv num den e
    let (m, e) := if m = 1 <<< 53 then (1 <<< 52, e + 1) else (m, e)
    if greatestExponent < e then .infinite negative else .finite negative m e

/-- The number nearest to `coefficient * 10 ^ exponent`. Exponents that no coefficient of this
length can bring back into range are answered without the power. -/
def ofDecimal (negative : Bool) (coefficient : Nat) (exponent : Int) : Binary64 :=
  let places : Int := (Nat.toDigits 10 coefficient).length
  if coefficient = 0 then .finite negative 0 leastExponent
  else if 400 < places + exponent then .infinite negative
  else if places + exponent < -400 then .finite negative 0 leastExponent
  else if 0 ≤ exponent then ofQuotient negative (coefficient * Decimal.power exponent.toNat) 1
  else ofQuotient negative coefficient (Decimal.power (-exponent).toNat)

end Binary64

end ScriptStack
