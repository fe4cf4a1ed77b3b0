import Mathlib.Data.Set.Card
import ScriptStack.Proofs.Number.SignedWord
import ScriptStack.Proofs.Number.Width

/-! All the encodings of a number: at each length none, one, or the two zeros. -/
namespace ScriptStack.Number

/-- The byte strings of a length that are read as a number, minimal or not. -/
def encodings (v : Int) (k : Nat) : Set Bytes :=
  {data | data.length = k ∧ read data (.integer k) false = .ok v}

variable {v : Int} {k : Nat} {data : Bytes}

theorem mem_encodings : data ∈ encodings v k ↔ data.length = k ∧ decode data = v := by
  simp only [encodings, Set.mem_ofPred_eq, read_eq_ok_iff]
  constructor
  · rintro ⟨hlength, _, _, hv⟩
    exact ⟨hlength, hv⟩
  · rintro ⟨hlength, hv⟩
    exact ⟨hlength, by omega, nofun, hv⟩

theorem encode_mem_encodings (v : Int) : encode v ∈ encodings v (encode v).length :=
  mem_encodings.mpr ⟨rfl, decode_encode v⟩

theorem length_encode_le (h : data ∈ encodings v k) : (encode v).length ≤ k := by
  obtain ⟨hlength, hv⟩ := mem_encodings.mp h
  by_cases hk : 1 ≤ k
  · rw [length_encode_le_iff v hk, ← hv]
    exact natAbs_decode_lt hk (Nat.le_of_eq hlength)
  · have hnil : data = [] := List.eq_nil_of_length_eq_zero (by omega)
    rw [← hv, hnil, decode_nil, encode_zero]
    exact Nat.zero_le k

/-- The strings of a length that are read as a number are the words of its magnitude, under its own
sign; zero takes either sign. -/
theorem mem_encodings_iff_signedWord (hk : 1 ≤ k) : data ∈ encodings v k ↔
    v.natAbs < 2 ^ (8 * k - 1) ∧ ∃ negative, data = signedWord k negative v.natAbs ∧
      (v ≠ 0 → negative = decide (v < 0)) := by
  rw [mem_encodings]
  constructor
  · rintro ⟨hlength, hv⟩
    have hne : data ≠ [] := by
      intro hnil
      rw [hnil, List.length_nil] at hlength
      omega
    have hlt := natAbs_decode_lt hk (Nat.le_of_eq hlength)
    have hword := eq_signedWord hne
    rw [hlength, ← natAbs_decode, hv] at hword
    rw [hv] at hlt
    refine ⟨hlt, isNegative data, hword, fun hnonzero => ?_⟩
    rw [decode_eq] at hv
    cases hs : isNegative data <;> simp [hs] at hv ⊢ <;> omega
  · rintro ⟨hlt, negative, rfl, hnegative⟩
    refine ⟨length_signedWord k negative v.natAbs, ?_⟩
    rw [decode_signedWord hk hlt]
    by_cases hv : v = 0
    · simp [hv]
    · rw [hnegative hv]
      by_cases hneg : v < 0
      · rw [decide_eq_true hneg, if_pos rfl]
        omega
      · rw [decide_eq_false hneg, if_neg Bool.false_ne_true]
        omega

theorem encodings_of_short (h : k < (encode v).length) : encodings v k = ∅ := by
  apply Set.eq_empty_of_forall_notMem
  intro data hdata
  have hle := length_encode_le hdata
  omega

/-- Padding goes between the magnitude and the sign, so there is one way to pad. -/
theorem encodings_of_ne_zero (hv : v ≠ 0) (h : (encode v).length ≤ k) :
    encodings v k = {signedWord k (decide (v < 0)) v.natAbs} := by
  have hpos : 0 < (encode v).length :=
    List.length_pos_iff.mpr fun hnil => hv (encode_eq_nil.mp hnil)
  have hk : 1 ≤ k := by omega
  have hlt := (length_encode_le_iff v hk).mp h
  ext data
  rw [mem_encodings_iff_signedWord hk, Set.mem_singleton_iff]
  constructor
  · rintro ⟨_, negative, hdata, hnegative⟩
    rw [hdata, hnegative hv]
  · intro hdata
    exact ⟨hlt, _, hdata, fun _ => rfl⟩

theorem encodings_zero_nil : encodings 0 0 = {[]} := by
  ext data
  rw [mem_encodings, Set.mem_singleton_iff]
  constructor
  · rintro ⟨hlength, _⟩
    exact List.eq_nil_of_length_eq_zero hlength
  · rintro rfl
    exact ⟨rfl, decode_nil⟩

theorem signedWord_zero (k : Nat) : signedWord k false 0 = List.replicate k 0 := by
  have hword := Bytes.word_value (List.replicate k 0)
  rw [Bytes.value_replicate_zero, List.length_replicate] at hword
  exact hword

theorem signedWord_zero_negative (hk : 1 ≤ k) :
    signedWord k true 0 = List.replicate (k - 1) 0 ++ [0x80] := by
  have hlength : (signedWord k true 0).length =
      (List.replicate (k - 1) (0 : UInt8) ++ [0x80]).length := by
    rw [length_signedWord, List.length_append, List.length_replicate, List.length_singleton]
    omega
  have hbits : 8 * k - 1 = 8 * (k - 1) + 7 := by omega
  have hzero : Bytes.value [0x80] = 2 ^ 7 := rfl
  apply (Bytes.value_inj hlength).mp
  calc
    (signedWord k true 0).value = 2 ^ (8 * k - 1) := by
      rw [value_signedWord hk (Nat.two_pow_pos _), if_pos rfl, Nat.zero_add]
    _ = 256 ^ (k - 1) * 2 ^ 7 := by rw [hbits, Nat.pow_add, Nat.pow_mul]
    _ = (List.replicate (k - 1) 0 ++ [0x80] : Bytes).value := by
      rw [Bytes.value_append, Bytes.value_replicate_zero, List.length_replicate, hzero,
        Nat.zero_add]

theorem encodings_zero (hk : 1 ≤ k) :
    encodings 0 k = {List.replicate k 0, List.replicate (k - 1) 0 ++ [0x80]} := by
  rw [← signedWord_zero, ← signedWord_zero_negative hk]
  ext data
  rw [mem_encodings_iff_signedWord hk, Set.mem_insert_iff, Set.mem_singleton_iff]
  constructor
  · rintro ⟨_, negative, hdata, _⟩
    cases negative
    · exact .inl hdata
    · exact .inr hdata
  · rintro (hdata | hdata)
    · exact ⟨Nat.two_pow_pos _, false, hdata, fun h => absurd rfl h⟩
    · exact ⟨Nat.two_pow_pos _, true, hdata, fun h => absurd rfl h⟩

theorem zeros_ne (hk : 1 ≤ k) :
    (List.replicate k 0 : Bytes) ≠ List.replicate (k - 1) 0 ++ [0x80] := by
  rw [← signedWord_zero, ← signedWord_zero_negative hk]
  intro h
  have hplus := (sign_magnitude_signedWord hk (Nat.two_pow_pos _) false).1
  have hminus := (sign_magnitude_signedWord hk (Nat.two_pow_pos _) true).1
  rw [h, hminus] at hplus
  cases hplus

theorem encard_encodings (v : Int) (k : Nat) : (encodings v k).encard =
    if k < (encode v).length then 0 else if v = 0 ∧ 1 ≤ k then 2 else 1 := by
  by_cases hshort : k < (encode v).length
  · rw [if_pos hshort, encodings_of_short hshort, Set.encard_empty]
  · rw [if_neg hshort]
    by_cases hv : v = 0
    · by_cases hk : 1 ≤ k
      · rw [if_pos ⟨hv, hk⟩, hv, encodings_zero hk, Set.encard_pair (zeros_ne hk)]
      · have hnone : k = 0 := by omega
        rw [if_neg (fun h => hk h.2), hv, hnone, encodings_zero_nil, Set.encard_singleton]
    · rw [if_neg (fun h => hv h.1), encodings_of_ne_zero hv (Nat.not_lt.mp hshort),
        Set.encard_singleton]

theorem eq_encode_or_longer (h : data ∈ encodings v k) :
    data = encode v ∨ (encode v).length < k := by
  obtain hlt | heq := Nat.lt_or_eq_of_le (length_encode_le h)
  · exact .inr hlt
  · refine .inl ?_
    -- at this length there is one encoding only, since that of zero is the empty string
    have hwritten := encode_mem_encodings v
    have hone := encard_encodings v k
    have hzero : ¬ (v = 0 ∧ 1 ≤ k) := by
      rintro ⟨rfl, hk⟩
      rw [encode_zero, List.length_nil] at heq
      omega
    rw [if_neg (by omega), if_neg hzero] at hone
    obtain ⟨only, honly⟩ := Set.encard_eq_one.mp hone
    rw [heq, honly, Set.mem_singleton_iff] at hwritten
    rw [honly, Set.mem_singleton_iff] at h
    rw [h, hwritten]

theorem isMinimal_iff_eq_encode (h : data ∈ encodings v k) :
    isMinimal data = true ↔ data = encode v := by
  rw [isMinimal_iff_encode_decode, (mem_encodings.mp h).2, eq_comm]

/-- How many strings of each length are read as a number, which these are for zero, and that the
written one is the only shortest and the only minimal one. -/
theorem encodings_classified (v : Int) :
    (∀ k, (encodings v k).encard =
      if k < (encode v).length then 0 else if v = 0 ∧ 1 ≤ k then 2 else 1) ∧
    (∀ k, 1 ≤ k → encodings 0 k = {List.replicate k 0, List.replicate (k - 1) 0 ++ [0x80]}) ∧
    encode v ∈ encodings v (encode v).length ∧
    ∀ k data, data ∈ encodings v k →
      (data = encode v ∨ (encode v).length < k) ∧ (isMinimal data = true ↔ data = encode v) :=
  ⟨encard_encodings v, fun _ => encodings_zero, encode_mem_encodings v,
    fun _ _ h => ⟨eq_encode_or_longer h, isMinimal_iff_eq_encode h⟩⟩

/-- In three bytes zero is read from two strings, and 1 from a padded one, which is not minimal. -/
theorem encodings_in_three_bytes :
    encodings 0 3 = {[0, 0, 0], [0, 0, 0x80]} ∧
    [1, 0, 0] ∈ encodings 1 3 ∧ (encodings 1 3).encard = 1 ∧ isMinimal [1, 0, 0] ≠ true := by
  have hpadded : [1, 0, 0] ∈ encodings 1 3 := mem_encodings.mpr ⟨rfl, by decide⟩
  refine ⟨(encodings_classified 0).2.1 3 (by decide), hpadded, ?_, fun h => ?_⟩
  · rw [(encodings_classified 1).1 3, if_neg (by decide +kernel), if_neg (by decide)]
  · exact absurd (((encodings_classified 1).2.2.2 3 _ hpadded).2.mp h) (by decide +kernel)

end ScriptStack.Number
