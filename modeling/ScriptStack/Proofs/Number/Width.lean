import Mathlib.Algebra.Group.Int.Defs
import ScriptStack.Proofs.Fault
import ScriptStack.Proofs.Heap.Reading
import ScriptStack.Proofs.Number.RoundTrip

/-! How many bytes a number takes, and what reading under a limit comes to: a fault, or a number
that depends on the bytes alone. -/
namespace ScriptStack

namespace Number

/-- Each byte more makes room for eight bits more; one bit is the sign's. -/
theorem length_signedBytes_le_iff (negative : Bool) (n : Nat) {k : Nat} (hk : 1 ≤ k) :
    (signedBytes negative n).length ≤ k ↔ n < 2 ^ (8 * k - 1) := by
  -- along the writer: for one byte less there are eight bits less
  fun_induction signedBytes negative n generalizing k with
  | case1 n h =>
    have hroom : 2 ^ 7 ≤ 2 ^ (8 * k - 1) := Nat.pow_le_pow_right (by omega) (by omega)
    simp only [List.length_singleton]
    omega
  | case2 n h ih =>
    have hpos := List.length_pos_iff.mpr (signedBytes_ne_nil negative (n / 256))
    rw [List.length_cons]
    obtain ⟨j, rfl⟩ := Nat.exists_eq_add_of_le' hk
    cases j with
    | zero =>
      simp only [Nat.zero_add, Nat.mul_one]
      omega
    | succ i =>
      have hbits : 8 * (i + 1 + 1) - 1 = 8 + (8 * (i + 1) - 1) := by omega
      have hrest := ih (k := i + 1) (by omega)
      rw [hbits, Nat.pow_add]
      omega

theorem length_encode_le_iff (v : Int) {k : Nat} (hk : 1 ≤ k) :
    (encode v).length ≤ k ↔ v.natAbs < 2 ^ (8 * k - 1) := by
  by_cases hv : v = 0
  · have hpos := Nat.two_pow_pos (8 * k - 1)
    simp only [hv, encode_zero, List.length_nil, Nat.zero_le, Int.natAbs_zero, true_iff]
    exact hpos
  · rw [encode, if_neg hv]
    exact length_signedBytes_le_iff _ _ hk

theorem natAbs_decode (data : Bytes) : (decode data).natAbs = magnitude data := by
  rw [decode_eq]
  split <;> simp

theorem natAbs_decode_lt {data : Bytes} {k : Nat} (hk : 1 ≤ k) (hsize : data.length ≤ k) :
    (decode data).natAbs < 2 ^ (8 * k - 1) := by
  by_cases hne : data = []
  · rw [hne, decode_nil]
    exact Nat.two_pow_pos _
  · have hlt := magnitude_lt data hne
    have hbits : magnitudeBits data ≤ 8 * k - 1 := by
      rw [magnitudeBits]
      omega
    rw [natAbs_decode]
    exact Nat.lt_of_lt_of_le hlt (Nat.pow_le_pow_right (by omega) hbits)

theorem read_cases (data : Bytes) (limit : Int) (minimal : Bool) :
    (limit < data.length ∧
      read data (.integer limit) minimal =
        .error (Fault.numberTooLong data.length (.integer limit)).raised) ∨
    (data.length ≤ limit ∧ minimal = true ∧ isMinimal data = false ∧
      read data (.integer limit) minimal = .error (.notMinimal data)) ∨
    (data.length ≤ limit ∧ (minimal = true → isMinimal data = true) ∧
      read data (.integer limit) minimal = .ok (decode data)) := by
  by_cases hsize : limit < data.length
  · refine .inl ⟨hsize, read_of_below ?_ minimal⟩
    rw [Quantity.below_integer, decide_eq_true hsize]
  · have hbelow : (Quantity.integer limit).below data.length = false := by
      rw [Quantity.below_integer, decide_eq_false hsize]
    have hfits : (data.length : Int) ≤ limit := Int.not_lt.mp hsize
    rw [read_of_fits hbelow]
    cases minimal <;> cases hm : isMinimal data <;> simp [hfits]

/-- Bytes are refused as too long in words that hold the limit, so only under one that can be
written. -/
theorem tooLong_stops_read (data : Bytes) (limit : Int) (minimal : Bool) :
    Family.tooLong.Stops (read data (.integer limit) minimal) ↔
      limit < data.length ∧ Decimal.isWritable limit = true := by
  obtain ⟨hsize, hread⟩ | ⟨hsize, _, _, hread⟩ | ⟨hsize, _, hread⟩ :=
    read_cases data limit minimal
  · rw [hread, Fault.raised_numberTooLong, Family.stops_error]
    cases Decimal.isWritable limit <;> simp [hsize, Fault.family?]
  · simp [hread, hsize, Fault.family?]
  · simp [hread, hsize]

theorem read_eq_badValue_iff (data : Bytes) (limit : Int) (minimal : Bool) :
    read data (.integer limit) minimal = .error (.misuse .badValue) ↔
      limit < data.length ∧ Decimal.isWritable limit = false := by
  obtain ⟨hsize, hread⟩ | ⟨hsize, _, _, hread⟩ | ⟨hsize, _, hread⟩ :=
    read_cases data limit minimal
  · rw [hread, Fault.raised_numberTooLong]
    cases Decimal.isWritable limit <;> simp [hsize]
  · simp [hread, hsize]
  · simp [hread, hsize]

theorem notMinimal_stops_read (data : Bytes) (limit : Int) (minimal : Bool) :
    Family.notMinimal.Stops (read data (.integer limit) minimal) ↔
      data.length ≤ limit ∧ minimal = true ∧ isMinimal data = false := by
  obtain ⟨hsize, hread⟩ | ⟨hsize, hasked, hm, hread⟩ | ⟨hsize, hm, hread⟩ :=
    read_cases data limit minimal
  · have hlong : ¬ (data.length : Int) ≤ limit := Int.not_le.mpr hsize
    rw [hread, Family.stops_error]
    exact iff_of_false (Fault.family?_raised_ne (by simp [Fault.family?])) fun h => hlong h.1
  · rw [hread, Family.stops_error]
    exact ⟨fun _ => ⟨hsize, hasked, hm⟩, fun _ => rfl⟩
  · simpa [hread, hsize] using hm

theorem exists_read_iff {k : Nat} (hk : 1 ≤ k) (minimal : Bool) (v : Int) :
    (∃ data, read data (.integer k) minimal = .ok v) ↔ v.natAbs < 2 ^ (8 * k - 1) := by
  constructor
  · rintro ⟨data, hdata⟩
    obtain ⟨hsize, _, rfl⟩ := read_eq_ok_iff.mp hdata
    exact natAbs_decode_lt hk (by omega)
  · intro hv
    have hsize := (length_encode_le_iff v hk).mpr hv
    exact ⟨encode v, read_eq_ok_iff.mpr ⟨by omega, fun _ => isMinimal_encode v, decode_encode v⟩⟩

end Number

namespace Entry

theorem toNumber_of_buffer {h : Heap} {e : Entry} {b : BufferId} (he : h.operand e = .buffer b)
    (minimal : Bool) : e.toNumber h minimal = Number.read (h.read b) (.integer 4) minimal := by
  rw [toNumber, content_of_buffer he]
  rfl

theorem natAbs_toNumber_lt {h : Heap} {e : Entry} {minimal : Bool} {v : Int}
    (he : e.kind h = .bytesEntry) (hv : e.toNumber h minimal = .ok v) : v.natAbs < 2 ^ 31 := by
  obtain ⟨b, hb⟩ := Operand.kind_eq_bytesEntry.mp he
  rw [toNumber_of_buffer hb] at hv
  exact (Number.exists_read_iff (by omega : 1 ≤ 4) minimal v).mp ⟨_, hv⟩

theorem toNumber_ofBytes_encode (h : Heap) {v : Int} (hv : v.natAbs < 2 ^ 31) (minimal : Bool) :
    (ofBytes h (Number.encode v)).2.toNumber (ofBytes h (Number.encode v)).1 minimal = .ok v := by
  have hsize := (Number.length_encode_le_iff v (by omega : 1 ≤ 4)).mpr hv
  rw [toNumber, content_ofBytes]
  exact Number.read_eq_ok_iff.mpr
    ⟨Int.ofNat_le.mpr hsize, fun _ => Number.isMinimal_encode v, Number.decode_encode v⟩

end Entry

namespace Number

/-- The width of an encoding, the outcome of reading under any limit, the numbers that can be read
under one, and the window of the numbers that entries of bytes are read as. Bytes over a limit that
cannot be written are refused for that, and not as too long. -/
theorem width_and_outcome (data : Bytes) (m : Int) (minimal : Bool) :
    let outcome := read data (.integer m) minimal
    (∀ (v : Int) (k : Nat), 1 ≤ k →
      ((encode v).length ≤ k ↔ v.natAbs ≤ 2 ^ (8 * k - 1) - 1)) ∧
    ((Family.tooLong.Stops outcome ↔ m < data.length ∧ Decimal.isWritable m = true) ∧
      (outcome = .error (.misuse .badValue) ↔
        m < data.length ∧ Decimal.isWritable m = false) ∧
      (Family.notMinimal.Stops outcome ↔
        data.length ≤ m ∧ minimal = true ∧ isMinimal data = false) ∧
      (data.length ≤ m → (minimal = true → isMinimal data = true) → outcome = .ok (decode data))) ∧
    (1 ≤ m → ∀ v : Int, (∃ other, read other (.integer m) minimal = .ok v) ↔
      v.natAbs ≤ 2 ^ (8 * m - 1).toNat - 1) ∧
    (∀ (h : Heap) (e : Entry) (v : Int), e.kind h = .bytesEntry →
      e.toNumber h minimal = .ok v → -(2 ^ 31 - 1) ≤ v ∧ v ≤ 2 ^ 31 - 1) ∧
    ∀ (h : Heap) (v : Int), -(2 ^ 31 - 1) ≤ v → v ≤ 2 ^ 31 - 1 →
      let made := Entry.ofBytes h (encode v)
      made.2.kind made.1 = .bytesEntry ∧ made.2.toNumber made.1 minimal = .ok v := by
  intro outcome
  refine ⟨fun v k hk => ?_, ⟨?_, ?_, ?_, ?_⟩, fun hm v => ?_, fun h e v he hv => ?_,
    fun h v hlow hhigh => ⟨?_, ?_⟩⟩
  · have hpos := Nat.two_pow_pos (8 * k - 1)
    rw [length_encode_le_iff v hk]
    omega
  · exact tooLong_stops_read data m minimal
  · exact read_eq_badValue_iff data m minimal
  · exact notMinimal_stops_read data m minimal
  · intro hsize hasked
    exact read_eq_ok_iff.mpr ⟨hsize, hasked, rfl⟩
  · obtain ⟨k, rfl⟩ := Int.eq_ofNat_of_zero_le (by omega : 0 ≤ m)
    have hbits : (8 * (k : Int) - 1).toNat = 8 * k - 1 := by omega
    have hpos := Nat.two_pow_pos (8 * k - 1)
    rw [hbits, exists_read_iff (by omega) minimal v]
    omega
  · have hlt := Entry.natAbs_toNumber_lt he hv
    omega
  · exact Operand.kind_eq_bytesEntry.mpr ⟨h.next, Entry.operand_ofBytes h (encode v)⟩
  · exact Entry.toNumber_ofBytes_encode h (by omega) minimal

/-- One byte holds -127 and 127 but not 128; an entry of four bytes is read as 2^31 - 1. Bytes that
are too long and not minimal are too long. -/
theorem width_at_boundaries :
    (encode 127).length ≤ 1 ∧ ¬ (encode 128).length ≤ 1 ∧
    (∃ data, read data (.integer 1) true = .ok (-127)) ∧
    (¬ ∃ data, read data (.integer 1) false = .ok 128) ∧
    Family.tooLong.Stops (read [0] (.integer (-1)) true) ∧
    Family.notMinimal.Stops (read [0] (.integer 1) true) ∧
    read [0] (.integer 1) false = .ok 0 ∧
    ∃ h e, Entry.kind h e = .bytesEntry ∧ e.toNumber h true = .ok (2 ^ 31 - 1) ∧
      ∀ v, e.toNumber h false = .ok v → v ≤ 2 ^ 31 - 1 := by
  obtain ⟨hwidth, ⟨_, _, hnot, _⟩, hread, _, hmade⟩ := width_and_outcome [0] 1 true
  obtain ⟨_, ⟨_, _, _, hok⟩, hreadAny, hwindow, _⟩ := width_and_outcome [0] 1 false
  obtain ⟨_, ⟨hlong, _⟩, _⟩ := width_and_outcome [0] (-1) true
  obtain ⟨hkind, hmax⟩ := hmade .empty (2 ^ 31 - 1) (by decide) (by decide)
  refine ⟨(hwidth 127 1 (by decide)).mpr (by decide +kernel), ?_, ?_, ?_, ?_, ?_, ?_, _, _, hkind,
    hmax, ?_⟩
  · intro h
    exact absurd ((hwidth 128 1 (by decide)).mp h) (by decide)
  · exact (hread (by decide) (-127)).mpr (by decide)
  · intro h
    exact absurd ((hreadAny (by decide) 128).mp h) (by decide)
  · exact hlong.mpr ⟨by decide, Decimal.isWritable_of_lt (by decide)⟩
  · exact hnot.mpr (by decide)
  · exact hok (by decide) (by decide)
  · intro v hv
    exact (hwindow _ _ v hkind hv).2

/-- No bytes at all are more than a limit far below zero allows, but where it cannot be written they are
not refused as too long. -/
theorem refused_under_overlong_limit :
    let limit : Int := -Decimal.overlong
    let outcome := read [] (.integer limit) false
    limit < ([] : Bytes).length ∧ outcome = .error (.misuse .badValue) ∧
      ¬ Family.tooLong.Stops outcome := by
  intro limit outcome
  have hsize : limit < ([] : Bytes).length := by
    have hlarge := Decimal.le_overlong
    rw [List.length_nil]
    omega
  have hw : Decimal.isWritable limit = false :=
    (Decimal.isWritable_neg _).trans Decimal.isWritable_overlong
  have hbad : outcome = .error (.misuse .badValue) :=
    (read_eq_badValue_iff [] limit false).mpr ⟨hsize, hw⟩
  refine ⟨hsize, hbad, ?_⟩
  rw [hbad]
  exact Family.not_stops_misuse _ _

end Number

end ScriptStack
