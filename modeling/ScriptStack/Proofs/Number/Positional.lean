import Mathlib.Algebra.BigOperators.Ring.Finset
import Mathlib.Data.Int.Bitwise
import ScriptStack.Proofs.Number.RoundTrip

/-! Byte strings in the positional system to the base 256, and the mask that takes the sign off them. -/
namespace ScriptStack.Number

def digit (data : Bytes) (i : Nat) : Nat := (data.getD i 0).toNat

theorem digit_cons_zero (b : UInt8) (rest : Bytes) : digit (b :: rest) 0 = b.toNat := rfl

theorem digit_cons_succ (b : UInt8) (rest : Bytes) (i : Nat) :
    digit (b :: rest) (i + 1) = digit rest i := rfl

theorem isNegative_eq_digit {data : Bytes} (h : data ≠ []) :
    isNegative data = decide (128 ≤ digit data (data.length - 1)) := by
  fun_induction magnitude data with
  | case1 => exact absurd rfl h
  | case2 last => exact isNegative_single last
  | case3 b c rest ih => rw [isNegative_cons, ih (List.cons_ne_nil c rest)]; rfl

theorem magnitude_eq_sum {data : Bytes} (h : data ≠ []) :
    magnitude data = ∑ i ∈ Finset.range (data.length - 1), 256 ^ i * digit data i +
      256 ^ (data.length - 1) * (digit data (data.length - 1) % 128) := by
  fun_induction magnitude data with
  | case1 => exact absurd rfl h
  | case2 last => simp [digit_cons_zero]
  | case3 b c rest ih =>
    have hsum : ∑ i ∈ Finset.range (rest.length + 1), 256 ^ i * digit (b :: c :: rest) i =
        b.toNat + 256 * ∑ i ∈ Finset.range rest.length, 256 ^ i * digit (c :: rest) i := by
      rw [Finset.sum_range_succ', Finset.mul_sum, Nat.add_comm, Nat.pow_zero, Nat.one_mul,
        digit_cons_zero]
      congr 1
      apply Finset.sum_congr rfl
      intro i _
      rw [digit_cons_succ, Nat.pow_succ', Nat.mul_assoc]
    rw [ih (List.cons_ne_nil c rest)]
    simp only [List.length_cons, Nat.add_sub_cancel]
    rw [hsum, digit_cons_succ, Nat.pow_succ', Nat.mul_add, Nat.mul_assoc, Nat.add_assoc]

/-! ### The mask -/

theorem clearBits_eq_ldiff (n mask : Nat) : clearBits n mask = Nat.ldiff n mask := by
  apply Nat.eq_of_testBit_eq
  intro i
  rw [clearBits, Nat.testBit_xor, Nat.testBit_and, Nat.testBit_ldiff]
  cases n.testBit i <;> cases mask.testBit i <;> rfl

/-- Clearing bits of a natural number is masking it, as an integer without limit, with the negative
integer that has all bits but those. -/
theorem clearBits_eq_land (n mask : Nat) : (clearBits n mask : Int) = Int.land n (Int.lnot mask) := by
  rw [clearBits_eq_ldiff]
  rfl

theorem clearBits_of_lt {r p : Nat} (h : r < 2 ^ p) : clearBits r (1 <<< p) = r := by
  rw [clearBits, Nat.one_shiftLeft, Nat.and_two_pow, Nat.testBit_lt_two_pow h]
  simp

theorem clearBits_value {data : Bytes} (h : data ≠ []) :
    clearBits data.value (1 <<< (8 * data.length - 1)) = magnitude data := by
  have hlt := magnitude_lt data h
  have hvalue := value_eq data h
  rw [magnitudeBits] at hlt hvalue
  rw [hvalue]
  -- The sign bit stands on its own above the magnitude, or the mask meets no bit at all.
  split
  · exact clearBits_two_pow_add hlt
  · rw [Nat.zero_add]
    exact clearBits_of_lt hlt

/-- All bits of an integer but the one that carries the sign of so many bytes. -/
def signMask (size : Nat) : Int := Int.lnot (1 <<< (8 * size - 1) : Nat)

theorem testBit_land_signMask (n : Int) (size i : Nat) :
    (Int.land n (signMask size)).testBit i = (n.testBit i && decide (i ≠ 8 * size - 1)) := by
  have hone : Int.testBit (1 <<< (8 * size - 1) : Nat) i = decide (8 * size - 1 = i) := by
    rw [Nat.one_shiftLeft]
    exact Nat.testBit_two_pow
  rw [signMask, Int.testBit_land, Int.testBit_lnot, hone]
  simp [eq_comm]

theorem land_signMask {data : Bytes} (h : data ≠ []) :
    Int.land data.value (signMask data.length) = magnitude data := by
  rw [signMask, ← clearBits_eq_land, clearBits_value h]

/-- A string of any length is read as the sum of its digits, each at its place, under the sign that the
highest digit carries. The mask that the reader applies is that of an integer without limit: it takes
the sign bit off and leaves every other bit. -/
theorem read_positional (data : Bytes) (h : data ≠ []) :
    let top := data.length - 1
    let digits := ∑ i ∈ Finset.range top, 256 ^ i * digit data i + 256 ^ top * (digit data top % 128)
    let outcome := read data (.integer data.length) false
    outcome = .ok ((if 128 ≤ digit data top then -1 else 1) * digits) ∧
    outcome = .ok (if 128 ≤ digit data top then -Int.land data.value (signMask data.length)
      else data.value) ∧
    Int.land data.value (signMask data.length) = digits ∧
    ∀ (n : Int) (i : Nat), (Int.land n (signMask data.length)).testBit i =
      (n.testBit i && decide (i ≠ 8 * data.length - 1)) := by
  intro top digits outcome
  have hread : outcome = .ok (decode data) := read_eq_ok_iff.mpr ⟨Int.le_refl _, nofun, rfl⟩
  have hdigits : magnitude data = digits := magnitude_eq_sum h
  have hmask : Int.land data.value (signMask data.length) = digits := by
    rw [land_signMask h, hdigits]
  have hsign : isNegative data = decide (128 ≤ digit data top) := isNegative_eq_digit h
  have hvalue := value_eq data h
  rw [hread, hmask, decode_eq, hsign, hdigits]
  rw [hsign, hdigits] at hvalue
  refine ⟨?_, ?_, rfl, fun n i => testBit_land_signMask n data.length i⟩
  · by_cases hs : 128 ≤ digit data top <;> simp [hs]
  · by_cases hs : 128 ≤ digit data top <;> simp [hs, hvalue]

/-- Three bytes with the sign set: 1 + 2 * 256 + 3 * 256 ^ 2, negative. -/
theorem read_positional_three_bytes :
    ([0x01, 0x02, 0x83] : Bytes) ≠ [] ∧
    read [0x01, 0x02, 0x83] (.integer 3) false = .ok (-197121) ∧
    Int.land 8585729 (signMask 3) = 197121 := by
  have hne : ([0x01, 0x02, 0x83] : Bytes) ≠ [] := List.cons_ne_nil _ _
  obtain ⟨hread, _, hmask, _⟩ := read_positional [0x01, 0x02, 0x83] hne
  exact ⟨hne, hread, hmask⟩

end ScriptStack.Number
