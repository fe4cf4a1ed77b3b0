import ScriptStack.Proofs.Fault
import ScriptStack.Proofs.Number.RoundTrip

/-! Numbers and their negatives: the encodings of both differ in the sign bit alone, and reading does
not tell them apart but for the sign. -/
namespace ScriptStack.Number

def flipSign : Bytes → Bytes
  | [] => []
  | [last] => [last ^^^ signBit]
  | b :: c :: rest => b :: flipSign (c :: rest)

theorem length_flipSign (data : Bytes) : (flipSign data).length = data.length := by
  fun_induction flipSign data with
  | case1 => rfl
  | case2 => rfl
  | case3 b c rest ih => simp only [List.length_cons, ih]

theorem flipSign_ne_nil {data : Bytes} (h : data ≠ []) : flipSign data ≠ [] := by
  intro hnil
  have hlength := length_flipSign data
  rw [hnil] at hlength
  exact h (List.eq_nil_of_length_eq_zero hlength.symm)

/-! ### The last byte -/

theorem xor_signBit_mod (b : UInt8) : (b ^^^ signBit).toNat % 128 = b.toNat % 128 := by
  have h : (b.toNat ^^^ 2 ^ 7) % 2 ^ 7 = b.toNat % 2 ^ 7 ^^^ 2 ^ 7 % 2 ^ 7 := Nat.xor_mod_two_pow
  rwa [Nat.mod_self, Nat.xor_zero] at h

theorem xor_signBit_le (b : UInt8) : 128 ≤ (b ^^^ signBit).toNat ↔ ¬ 128 ≤ b.toNat := by
  have hb := b.toNat_lt
  have hflip := (b ^^^ signBit).toNat_lt
  -- The quotient by 128 is the top bit, which the mask inverts.
  have hbit : (b ^^^ signBit).toNat / 128 = b.toNat / 128 ^^^ 1 :=
    Nat.xor_div_two_pow (a := b.toNat) (b := 2 ^ 7) (n := 7)
  obtain hlow | hhigh : b.toNat / 128 = 0 ∨ b.toNat / 128 = 1 := by omega
  · rw [hlow, Nat.zero_xor] at hbit
    omega
  · rw [hhigh, Nat.xor_self] at hbit
    omega

/-! ### The whole string -/

theorem magnitude_flipSign (data : Bytes) : magnitude (flipSign data) = magnitude data := by
  fun_induction flipSign data with
  | case1 => rfl
  | case2 last => exact xor_signBit_mod last
  | case3 b c rest ih =>
    obtain ⟨d, tail, htail⟩ :=
      List.exists_cons_of_ne_nil (flipSign_ne_nil (List.cons_ne_nil c rest))
    rw [htail] at ih ⊢
    rw [magnitude, ih, magnitude]

theorem isNegative_flipSign {data : Bytes} (h : data ≠ []) :
    isNegative (flipSign data) = !isNegative data := by
  fun_induction flipSign data with
  | case1 => exact absurd rfl h
  | case2 last =>
    rw [isNegative_single, isNegative_single, ← decide_not]
    exact decide_eq_decide.mpr (xor_signBit_le last)
  | case3 b c rest ih =>
    have hrest := ih (List.cons_ne_nil c rest)
    obtain ⟨d, tail, htail⟩ :=
      List.exists_cons_of_ne_nil (flipSign_ne_nil (List.cons_ne_nil c rest))
    rw [htail] at hrest ⊢
    rw [isNegative_cons, isNegative_cons, hrest]

/-- Whether a string is minimal depends on its last byte without the sign, and on the byte before. -/
theorem isMinimal_flipSign (data : Bytes) : isMinimal (flipSign data) = isMinimal data := by
  fun_induction isMinimal data with
  | case1 => rfl
  | case2 last => rw [flipSign, isMinimal_single, xor_signBit_mod, ← isMinimal_single, isMinimal]
  | case3 b last =>
    rw [flipSign, flipSign, isMinimal_pair, xor_signBit_mod, ← isMinimal_pair, isMinimal]
  | case4 b c d rest ih =>
    obtain ⟨e, tail, htail⟩ :=
      List.exists_cons_of_ne_nil (flipSign_ne_nil (List.cons_ne_nil d rest))
    rw [flipSign, htail] at ih
    rw [flipSign, flipSign, htail, isMinimal_cons, ih]

theorem decode_flipSign {data : Bytes} (h : data ≠ []) : decode (flipSign data) = -decode data := by
  rw [decode_eq, decode_eq, isNegative_flipSign h, magnitude_flipSign]
  cases isNegative data <;> simp

/-- The flipped encoding is minimal, so it is the one that is written for the number it is read as. -/
theorem encode_neg {v : Int} (hv : v ≠ 0) : encode (-v) = flipSign (encode v) := by
  have hne : encode v ≠ [] := fun hnil => hv (encode_eq_nil.mp hnil)
  have hminimal : isMinimal (flipSign (encode v)) = true := by
    rw [isMinimal_flipSign, isMinimal_encode]
  calc
    encode (-v) = encode (decode (flipSign (encode v))) := by
      rw [decode_flipSign hne, decode_encode]
    _ = flipSign (encode v) := encode_decode hminimal

theorem length_encode_neg (v : Int) : (encode (-v)).length = (encode v).length := by
  by_cases hv : v = 0
  · rw [hv, Int.neg_zero]
  · rw [encode_neg hv, length_flipSign]

/-! ### Reading -/

/-- Two readings that end alike: with a number and its negative, with faults of one family, or under a
limit that cannot be written. -/
inductive Opposite : Except Fault Int → Except Fault Int → Prop
  | numbers (v : Int) : Opposite (.ok v) (.ok (-v))
  | faults {fault other : Fault} {family : Family} : fault.family? = some family →
    other.family? = some family → Opposite (.error fault) (.error other)
  | unwritten : Opposite (.error (.misuse .badValue)) (.error (.misuse .badValue))

theorem opposite_read {data : Bytes} (h : data ≠ []) (limit : Quantity) (minimal : Bool) :
    Opposite (read data limit minimal) (read (flipSign data) limit minimal) := by
  have hlength := length_flipSign data
  cases hbelow : limit.below data.length with
  | true =>
    have hflip : limit.below (flipSign data).length = true := by rw [hlength, hbelow]
    rw [read_of_below hbelow, read_of_below hflip, hlength]
    obtain ⟨_, hraised⟩ | ⟨_, hraised⟩ := (Fault.numberTooLong data.length limit).raised_cases
    · rw [hraised]
      exact .faults rfl rfl
    · rw [hraised]
      exact .unwritten
  | false =>
    have hflip : limit.below (flipSign data).length = false := by rw [hlength, hbelow]
    rw [read_of_fits hbelow, read_of_fits hflip, isMinimal_flipSign, decode_flipSign h]
    split
    · exact .faults rfl rfl
    · exact .numbers (decode data)

/-- Inverting the sign bit of a string negates the number it is read as, under every limit, and changes
neither whether it can be read nor whether it is minimal. A number and its negative are written alike
but for that bit. -/
theorem sign_symmetric :
    (∀ data : Bytes, data ≠ [] →
      (∀ (limit : Quantity) (minimal : Bool),
        Opposite (read data limit minimal) (read (flipSign data) limit minimal)) ∧
      isMinimal (flipSign data) = isMinimal data) ∧
    (∀ v : Int, v ≠ 0 → encode (-v) = flipSign (encode v)) ∧
    ∀ v : Int, (encode (-v)).length = (encode v).length :=
  ⟨fun data h => ⟨opposite_read h, isMinimal_flipSign data⟩, fun _ => encode_neg, length_encode_neg⟩

/-- At 128, where the sign takes a byte of its own: 80 80 is 80 00 with the sign bit inverted. Under a
limit of one byte both are too long; 00 and 80 are zero both, and neither is minimal. -/
theorem sign_symmetric_at_128 :
    encode (-128) = flipSign [0x80, 0x00] ∧ flipSign [0x80, 0x00] = [0x80, 0x80] ∧
    Opposite (read [0x80, 0x00] (.integer 2) true) (read [0x80, 0x80] (.integer 2) true) ∧
    read [0x80, 0x00] (.integer 2) true = .ok 128 ∧
    Opposite (read [0x80, 0x00] (.integer 1) true) (read [0x80, 0x80] (.integer 1) true) ∧
    Opposite (read [0x00] (.integer 1) true) (read [0x80] (.integer 1) true) := by
  obtain ⟨hstrings, hnumbers, _⟩ := sign_symmetric
  have h128 : encode 128 = [0x80, 0x00] := by decide +kernel
  have hread := (hstrings [0x80, 0x00] (List.cons_ne_nil _ _)).1
  refine ⟨?_, rfl, hread (.integer 2) true, rfl, hread (.integer 1) true, ?_⟩
  · rw [← h128]
    exact hnumbers 128 (by decide)
  · exact (hstrings [0x00] (List.cons_ne_nil _ _)).1 (.integer 1) true

end ScriptStack.Number
