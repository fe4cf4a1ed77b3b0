import Mathlib.Data.Nat.Bitwise
import ScriptStack.Number.Encoding

/-! The sign and the magnitude of a byte string, read byte by byte, and the number that the bit
arithmetic makes of them. -/
namespace ScriptStack.Number

/-- The little-endian value without the top bit of the last byte. -/
def magnitude : Bytes → Nat
  | [] => 0
  | [last] => last.toNat % 128
  | b :: c :: rest => b.toNat + 256 * magnitude (c :: rest)

theorem byte_bne_zero (b : UInt8) : (b != 0) = decide (b.toNat ≠ 0) := by
  by_cases h : b = 0
  · simp [h]
  · have hn : b.toNat ≠ 0 := fun hz => h (UInt8.toNat_inj.mp hz)
    rw [decide_eq_true hn]
    exact bne_iff_ne.mpr h

theorem and_signBit (b : UInt8) : (b &&& signBit != 0) = decide (128 ≤ b.toNat) := by
  have hb := b.toNat_lt
  have hbit : (b &&& signBit).toNat = (b.toNat.testBit 7).toNat * 2 ^ 7 := by
    rw [UInt8.toNat_and]
    exact Nat.and_two_pow b.toNat 7
  rw [byte_bne_zero, hbit, Nat.testBit_eq_decide_div_mod_eq]
  by_cases h : 128 ≤ b.toNat
  · have hdiv : b.toNat / 128 % 2 = 1 := by omega
    simp [hdiv, h]
  · have hdiv : b.toNat / 128 % 2 = 0 := by omega
    simp [hdiv, h]

theorem and_low (b : UInt8) : (b &&& 0x7f != 0) = decide (b.toNat % 128 ≠ 0) := by
  have hlow : (b &&& 0x7f).toNat = b.toNat % 128 := by
    rw [UInt8.toNat_and]
    exact Nat.and_two_pow_sub_one_eq_mod b.toNat 7
  rw [byte_bne_zero, hlow]

theorem isNegative_single (last : UInt8) : isNegative [last] = decide (128 ≤ last.toNat) := by
  simp only [isNegative, List.getLast?_singleton, Option.any_some, and_signBit]

theorem isNegative_cons (b c : UInt8) (rest : Bytes) :
    isNegative (b :: c :: rest) = isNegative (c :: rest) := by
  simp only [isNegative, List.getLast?_cons_cons]

theorem isMinimal_single (last : UInt8) : isMinimal [last] = decide (last.toNat % 128 ≠ 0) :=
  and_low last

theorem isMinimal_pair (b last : UInt8) :
    isMinimal [b, last] = decide (last.toNat % 128 ≠ 0 ∨ 128 ≤ b.toNat) := by
  simp only [isMinimal, and_low, and_signBit, Bool.decide_or]

theorem isMinimal_cons (b c d : UInt8) (rest : Bytes) :
    isMinimal (b :: c :: d :: rest) = isMinimal (c :: d :: rest) := rfl

theorem clearBits_two_pow_add {r p : Nat} (h : r < 2 ^ p) : clearBits (2 ^ p + r) (1 <<< p) = r := by
  have hand : (2 ^ p + r) &&& 2 ^ p = 2 ^ p := by
    rw [Nat.and_two_pow, Nat.testBit_two_pow_add_eq, Nat.testBit_lt_two_pow h]
    simp
  apply Nat.eq_of_testBit_eq
  intro i
  rw [clearBits, Nat.one_shiftLeft, hand, Nat.testBit_xor, Nat.testBit_two_pow]
  obtain hi | rfl | hi := Nat.lt_trichotomy p i
  · have hsum : 2 ^ p + r < 2 ^ i := by
      have hle : 2 ^ (p + 1) ≤ 2 ^ i := Nat.pow_le_pow_right (by omega) hi
      rw [Nat.pow_succ] at hle
      omega
    have hr : r < 2 ^ i := by omega
    simp [Nat.testBit_lt_two_pow hsum, Nat.testBit_lt_two_pow hr, Nat.ne_of_lt hi]
  · simp [Nat.testBit_two_pow_add_eq]
  · simp [Nat.testBit_two_pow_add_gt hi, Nat.ne_of_gt hi]

def magnitudeBits (data : Bytes) : Nat := 8 * data.length - 1

theorem magnitudeBits_cons (b c : UInt8) (rest : Bytes) :
    2 ^ magnitudeBits (b :: c :: rest) = 256 * 2 ^ magnitudeBits (c :: rest) := by
  have h : magnitudeBits (b :: c :: rest) = 8 + magnitudeBits (c :: rest) := by
    simp only [magnitudeBits, List.length_cons]
    omega
  rw [h, Nat.pow_add]

theorem magnitude_lt (data : Bytes) (h : data ≠ []) : magnitude data < 2 ^ magnitudeBits data := by
  fun_induction magnitude data with
  | case1 => exact absurd rfl h
  | case2 last => simpa [magnitudeBits] using Nat.mod_lt last.toNat (by omega : 0 < 128)
  | case3 b c rest ih =>
    have hb := b.toNat_lt
    have hrest := ih (List.cons_ne_nil c rest)
    rw [magnitudeBits_cons]
    omega

theorem value_eq (data : Bytes) (h : data ≠ []) :
    data.value = (if isNegative data then 2 ^ magnitudeBits data else 0) + magnitude data := by
  fun_induction magnitude data with
  | case1 => exact absurd rfl h
  | case2 last =>
    have hb := last.toNat_lt
    simp only [Bytes.value, isNegative_single, magnitudeBits, List.length_cons, List.length_nil,
      decide_eq_true_eq]
    split <;> omega
  | case3 b c rest ih =>
    rw [Bytes.value, ih (List.cons_ne_nil c rest), isNegative_cons, magnitudeBits_cons]
    split <;> omega

theorem decode_eq (data : Bytes) :
    decode data = if isNegative data then -(magnitude data : Int) else magnitude data := by
  cases data with
  | nil => rfl
  | cons b rest =>
    have hne : b :: rest ≠ [] := List.cons_ne_nil b rest
    have hvalue := value_eq (b :: rest) hne
    rw [decode]
    by_cases hs : isNegative (b :: rest) = true
    · rw [if_pos hs] at hvalue
      rw [if_pos hs, if_pos hs, hvalue, ← magnitudeBits,
        clearBits_two_pow_add (magnitude_lt (b :: rest) hne)]
    · rw [if_neg hs, Nat.zero_add] at hvalue
      rw [if_neg hs, if_neg hs, hvalue]

theorem value_of_decode_neg {data : Bytes} (h : decode data < 0) :
    data.value = 2 ^ magnitudeBits data + (decode data).natAbs := by
  have hne : data ≠ [] := by
    rintro rfl
    exact absurd h (by decide)
  have hsign : isNegative data = true := by
    by_contra hs
    rw [decode_eq, if_neg hs] at h
    omega
  rw [value_eq data hne, decode_eq, if_pos hsign, if_pos hsign, Int.natAbs_neg, Int.natAbs_natCast]

theorem value_of_decode_pos {data : Bytes} (h : 0 < decode data) :
    data.value = (decode data).natAbs := by
  have hne : data ≠ [] := by
    rintro rfl
    exact absurd h (by decide)
  have hsign : ¬ isNegative data = true := by
    intro hs
    rw [decode_eq, if_pos hs] at h
    omega
  rw [value_eq data hne, decode_eq, if_neg hsign, if_neg hsign, Int.natAbs_natCast, Nat.zero_add]

end ScriptStack.Number
