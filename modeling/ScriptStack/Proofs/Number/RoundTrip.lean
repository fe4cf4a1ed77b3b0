import ScriptStack.Number.Reading
import ScriptStack.Proofs.Number.SignMagnitude

/-! Writing and reading numbers: they undo each other, and the encodings that are written are the
minimal ones. -/
namespace ScriptStack.Number

theorem toNat_signedByte {n : Nat} (h : n < 128) (negative : Bool) :
    (UInt8.ofNat (n + signMark negative)).toNat = n + signMark negative := by
  have hm : signMark negative ≤ 128 := by cases negative <;> simp [signMark]
  rw [UInt8.toNat_ofNat']
  exact Nat.mod_eq_of_lt (by omega)

theorem toNat_lowByte (n : Nat) : (UInt8.ofNat (n % 256)).toNat = n % 256 := by
  rw [UInt8.toNat_ofNat']
  exact Nat.mod_eq_of_lt (Nat.mod_lt n (by omega))

theorem signedByte_ofNat (b : UInt8) :
    UInt8.ofNat (b.toNat % 128 + signMark (decide (128 ≤ b.toNat))) = b := by
  have hb := b.toNat_lt
  apply UInt8.toNat_inj.mp
  rw [toNat_signedByte (Nat.mod_lt b.toNat (by omega))]
  by_cases h : 128 ≤ b.toNat
  · simp only [h, decide_true, signMark, if_true]
    omega
  · simp only [h, decide_false, signMark, Bool.false_eq_true, if_false]
    omega

theorem isNegative_signedBytes (negative : Bool) (n : Nat) :
    isNegative (signedBytes negative n) = negative := by
  fun_induction signedBytes negative n with
  | case1 n h =>
    rw [isNegative_single, toNat_signedByte h]
    cases negative <;> simp [signMark]
    exact h
  | case2 n h ih =>
    obtain ⟨c, rest, hc⟩ := List.exists_cons_of_ne_nil (signedBytes_ne_nil negative (n / 256))
    rw [hc, isNegative_cons, ← hc, ih]

theorem magnitude_signedBytes (negative : Bool) (n : Nat) :
    magnitude (signedBytes negative n) = n := by
  fun_induction signedBytes negative n with
  | case1 n h =>
    rw [magnitude, toNat_signedByte h]
    cases negative <;> simp [signMark] <;> omega
  | case2 n h ih =>
    obtain ⟨c, rest, hc⟩ := List.exists_cons_of_ne_nil (signedBytes_ne_nil negative (n / 256))
    rw [hc, magnitude, ← hc, ih, toNat_lowByte]
    omega

theorem isMinimal_signedBytes (negative : Bool) {n : Nat} (hn : n ≠ 0) :
    isMinimal (signedBytes negative n) = true := by
  fun_induction signedBytes negative n with
  | case1 n h =>
    rw [isMinimal_single, toNat_signedByte h]
    cases negative <;> simp [signMark] <;> omega
  | case2 n h ih =>
    by_cases hlast : n / 256 < 128
    · rw [signedBytes_of_lt hlast, isMinimal_pair, toNat_signedByte hlast, toNat_lowByte]
      cases negative <;> simp [signMark] <;> omega
    · rw [signedBytes_of_le (Nat.not_lt.mp hlast)] at ih ⊢
      obtain ⟨d, rest, hd⟩ :=
        List.exists_cons_of_ne_nil (signedBytes_ne_nil negative (n / 256 / 256))
      rw [hd] at ih ⊢
      rw [isMinimal_cons]
      exact ih (by omega)

theorem le_magnitude_of_isMinimal {b c : UInt8} {rest : Bytes}
    (h : isMinimal (b :: c :: rest) = true) : 128 ≤ magnitude (b :: c :: rest) := by
  induction rest generalizing b c with
  | nil =>
    simp only [isMinimal_pair, decide_eq_true_eq] at h
    simp only [magnitude]
    omega
  | cons d rest ih =>
    have hrest := ih (isMinimal_cons b c d rest ▸ h)
    rw [magnitude]
    omega

theorem magnitude_ne_zero_of_isMinimal {b : UInt8} {rest : Bytes}
    (h : isMinimal (b :: rest) = true) : magnitude (b :: rest) ≠ 0 := by
  cases rest with
  | nil => simpa [isMinimal_single, magnitude] using h
  | cons c rest =>
    have := le_magnitude_of_isMinimal h
    omega

/-- A minimal string is the one that is written for its sign and its magnitude. -/
theorem signedBytes_magnitude {b : UInt8} {rest : Bytes} (h : isMinimal (b :: rest) = true) :
    signedBytes (isNegative (b :: rest)) (magnitude (b :: rest)) = b :: rest := by
  induction rest generalizing b with
  | nil =>
    rw [isNegative_single, magnitude, signedBytes_of_lt (Nat.mod_lt b.toNat (by omega)),
      signedByte_ofNat]
  | cons c rest ih =>
    have hb := b.toNat_lt
    have hlow : (b.toNat + 256 * magnitude (c :: rest)) % 256 = b.toNat := by omega
    have hhigh : (b.toNat + 256 * magnitude (c :: rest)) / 256 = magnitude (c :: rest) := by omega
    have hlarge := le_magnitude_of_isMinimal h
    rw [magnitude] at hlarge ⊢
    rw [isNegative_cons, signedBytes_of_le hlarge, hlow, hhigh, UInt8.ofNat_toNat]
    cases rest with
    | nil =>
      rw [isNegative_single, magnitude, signedBytes_of_lt (Nat.mod_lt c.toNat (by omega)),
        signedByte_ofNat]
    | cons d rest => rw [ih (isMinimal_cons b c d rest ▸ h)]

theorem decode_encode (v : Int) : decode (encode v) = v := by
  by_cases hv : v = 0
  · rw [hv, encode_zero, decode_nil]
  · rw [encode, if_neg hv, decode_eq, isNegative_signedBytes, magnitude_signedBytes]
    by_cases hneg : v < 0
    · rw [if_pos (decide_eq_true hneg)]
      omega
    · rw [if_neg (by simpa using hneg)]
      omega

theorem isMinimal_encode (v : Int) : isMinimal (encode v) = true := by
  by_cases hv : v = 0
  · rw [hv, encode_zero]
    rfl
  · rw [encode, if_neg hv]
    exact isMinimal_signedBytes _ (Int.natAbs_ne_zero.mpr hv)

theorem encode_decode {data : Bytes} (h : isMinimal data = true) : encode (decode data) = data := by
  cases data with
  | nil => rw [decode_nil, encode_zero]
  | cons b rest =>
    have hm := magnitude_ne_zero_of_isMinimal h
    have hwritten := signedBytes_magnitude h
    rw [decode_eq]
    by_cases hs : isNegative (b :: rest) = true
    · rw [hs] at hwritten
      rw [if_pos hs, encode, if_neg (by omega), decide_eq_true (by omega), Int.natAbs_neg,
        Int.natAbs_natCast, hwritten]
    · rw [Bool.not_eq_true] at hs
      rw [hs] at hwritten
      rw [if_neg (by simp [hs]), encode, if_neg (by omega), decide_eq_false (by omega),
        Int.natAbs_natCast, hwritten]

theorem isMinimal_iff_encode_decode (data : Bytes) :
    isMinimal data = true ↔ encode (decode data) = data := by
  refine ⟨encode_decode, fun h => ?_⟩
  rw [← h]
  exact isMinimal_encode (decode data)

theorem isMinimal_iff_exists_encode (data : Bytes) :
    isMinimal data = true ↔ ∃ v, data = encode v := by
  refine ⟨fun h => ⟨decode data, (encode_decode h).symm⟩, ?_⟩
  rintro ⟨v, rfl⟩
  exact isMinimal_encode v

theorem read_eq_ok_iff {data : Bytes} {limit : Int} {minimal : Bool} {v : Int} :
    read data (.integer limit) minimal = .ok v ↔
      data.length ≤ limit ∧ (minimal = true → isMinimal data = true) ∧ decode data = v := by
  by_cases hsize : limit < data.length
  · have hbelow : (Quantity.integer limit).below data.length = true := by
      rw [Quantity.below_integer, decide_eq_true hsize]
    rw [read_of_below hbelow]
    simp only [reduceCtorEq, false_iff, not_and]
    omega
  · have hbelow : (Quantity.integer limit).below data.length = false := by
      rw [Quantity.below_integer, decide_eq_false hsize]
    have hle : (data.length : Int) ≤ limit := by omega
    rw [read_of_fits hbelow]
    cases minimal <;> cases hm : isMinimal data <;> simp [hle]

theorem isMinimal_iff_read_encode (data : Bytes) :
    isMinimal data = true ↔ ∃ v, read data (.integer data.length) false = .ok v ∧ encode v = data := by
  rw [isMinimal_iff_encode_decode]
  constructor
  · intro h
    exact ⟨decode data, read_eq_ok_iff.mpr ⟨Int.le_refl _, nofun, rfl⟩, h⟩
  · rintro ⟨v, hv, hdata⟩
    rw [(read_eq_ok_iff.mp hv).2.2, hdata]

theorem read_minimal_iff {data : Bytes} {limit : Int} :
    (∃ v, read data (.integer limit) true = .ok v) ↔
      data.length ≤ limit ∧ ∃ v, data = encode v := by
  rw [← isMinimal_iff_exists_encode]
  constructor
  · rintro ⟨v, hv⟩
    obtain ⟨hsize, hminimal, _⟩ := read_eq_ok_iff.mp hv
    exact ⟨hsize, hminimal rfl⟩
  · rintro ⟨hsize, hminimal⟩
    exact ⟨decode data, read_eq_ok_iff.mpr ⟨hsize, fun _ => hminimal, rfl⟩⟩

/-- Writing and reading are inverse bijections between the integers and the minimal strings. Where
minimal strings are asked for, those are read that are written, within the limit. -/
theorem read_encode_inverse :
    (∀ (v limit : Int) (minimal : Bool), (encode v).length ≤ limit →
      read (encode v) (.integer limit) minimal = .ok v) ∧
    (∀ data : Bytes,
      (isMinimal data = true ↔ ∃ v, data = encode v) ∧
      (isMinimal data = true ↔
        ∃ v, read data (.integer data.length) false = .ok v ∧ encode v = data)) ∧
    ∀ (data : Bytes) (limit : Int),
      (∃ v, read data (.integer limit) true = .ok v) ↔
        data.length ≤ limit ∧ ∃ v, data = encode v := by
  refine ⟨fun v limit minimal hsize => ?_, fun data => ?_, fun data limit => read_minimal_iff⟩
  · exact read_eq_ok_iff.mpr ⟨hsize, fun _ => isMinimal_encode v, decode_encode v⟩
  · exact ⟨isMinimal_iff_exists_encode data, isMinimal_iff_read_encode data⟩

/-- Two bytes are read back to -255 under a limit of two; no integer is written as the one byte 80. -/
theorem read_encode_neg_255 :
    read (encode (-255)) (.integer 2) true = .ok (-255) ∧ ¬ ∃ v, [0x80] = encode v := by
  refine ⟨read_encode_inverse.1 (-255) 2 true (by decide +kernel), fun h => ?_⟩
  have hm := (read_encode_inverse.2.1 [0x80]).1.mpr h
  exact absurd hm (by decide)

end ScriptStack.Number
