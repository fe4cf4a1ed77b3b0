import ScriptStack.Proofs.Number.Width
import ScriptStack.Proofs.Stack.Word

/-! A number and its encoding in the same commitment. The number is committed in two's complement, its
encoding as a sign and a magnitude with zeros after: below zero the two words meet once. -/
namespace ScriptStack

namespace Content

variable {v : Int}

theorem fits_encode_iff (v : Int) : (bytes (Number.encode v)).Fits ↔ v.natAbs < 2 ^ 31 :=
  Number.length_encode_le_iff v (by omega)

theorem unsigned_encode_of_nonneg (hv : 0 ≤ v) : (bytes (Number.encode v)).unsigned = v := by
  obtain hpos | rfl := Int.lt_or_eq_of_le hv
  · have hread : 0 < Number.decode (Number.encode v) := by rwa [Number.decode_encode]
    have hvalue := Number.value_of_decode_pos hread
    rw [Number.decode_encode] at hvalue
    rw [unsigned]
    omega
  · rfl

/-- Below zero the word is the magnitude with the sign bit of the last of its bytes. -/
theorem unsigned_encode_of_neg (hv : v < 0) : ∃ k, (Number.encode v).length = k ∧ 1 ≤ k ∧
    (bytes (Number.encode v)).unsigned = (2 ^ (8 * k - 1) + v.natAbs : Nat) := by
  have hread : Number.decode (Number.encode v) < 0 := by rwa [Number.decode_encode]
  have hvalue := Number.value_of_decode_neg hread
  rw [Number.decode_encode] at hvalue
  have hne : Number.encode v ≠ [] := fun he => by
    have := Number.encode_eq_nil.mp he
    omega
  exact ⟨_, rfl, List.length_pos_iff.mpr hne, congrArg Int.ofNat hvalue⟩

/-- The two words of a number whose encoding fits are the same from zero on, and at one place below it. -/
theorem unsigned_encode_eq_iff (hfits : v.natAbs < 2 ^ 31) :
    (number v).unsigned = (bytes (Number.encode v)).unsigned ↔ 0 ≤ v ∨ v = -2 ^ 30 := by
  have hwraps : (number v).unsigned = v % 2 ^ 32 := rfl
  rw [hwraps]
  by_cases hv : 0 ≤ v
  · rw [unsigned_encode_of_nonneg hv]
    omega
  · -- `2 ^ 32 - |v| = 2 ^ (8 k - 1) + |v|` leaves `|v| = 2 ^ 30`, where `k` is four
    obtain ⟨k, hk, hpos, hword⟩ := unsigned_encode_of_neg (Int.not_le.mp hv)
    have hfour : k ≤ 4 := hk ▸ (fits_encode_iff v).mpr hfits
    have hroom := (Number.length_encode_le_iff v hpos).mp (Nat.le_of_eq hk)
    rw [hword]
    obtain rfl | rfl | rfl | rfl : k = 1 ∨ k = 2 ∨ k = 3 ∨ k = 4 := by omega
    all_goals omega

theorem commit_eq_ok_iff {c : Content} {word : Bytes} :
    c.commit.result = .ok word ↔ c.Fits ∧ word = c.word := by
  by_cases hc : c.Fits
  · simp [commit_of_fits hc, hc, eq_comm]
  · obtain ⟨fault, hfault, _⟩ := commit_of_not_fits hc
    simp [hfault, hc]

theorem commit_refused {c : Content} (hc : ¬ c.Fits) : if c.isWritable then
    Family.contract.Stops c.commit.result else c.commit.result = .error (.misuse .badValue) := by
  obtain ⟨fault, hfault, hrefuses⟩ := commit_of_not_fits hc
  rw [hfault]
  rw [Refuses] at hrefuses
  split at hrefuses
  · rename_i hw
    rw [if_pos hw]
    exact Family.stops_error.mpr hrefuses.1
  · rename_i hw
    rw [if_neg hw, hrefuses]

theorem exists_commit_same_iff {c d : Content} :
    (∃ word, c.commit.result = .ok word ∧ d.commit.result = .ok word) ↔
      c.Fits ∧ d.Fits ∧ c.unsigned = d.unsigned := by
  constructor
  · rintro ⟨word, hcword, hdword⟩
    obtain ⟨hc, rfl⟩ := commit_eq_ok_iff.mp hcword
    obtain ⟨hd, hword⟩ := commit_eq_ok_iff.mp hdword
    exact ⟨hc, hd, (word_eq_iff hc hd).mp hword⟩
  · rintro ⟨hc, hd, hsame⟩
    exact ⟨_, commit_eq_ok_iff.mpr ⟨hc, rfl⟩, commit_eq_ok_iff.mpr ⟨hd, (word_eq_iff hc hd).mpr hsame⟩⟩

end Content

namespace Entry

theorem commit_ofNumber (h : Heap) (v : Int) :
    (ofNumber h v).2.commit (ofNumber h v).1 = (Content.number v).commit := by
  rw [commit, content_ofNumber]

theorem commit_ofBytes (h : Heap) (data : Bytes) :
    (ofBytes h data).2.commit (ofBytes h data).1 = (Content.bytes data).commit := by
  rw [commit, content_ofBytes]

/-- An entry made of a number and one made of its encoding are committed alike from zero to the greatest
signed number and at one number below zero. Elsewhere the encoding runs out of bytes first, or both are
committed, but to different bytes. Neither is committed from 2^32 up, and a number that cannot be
written is then not refused in words. -/
theorem commits_alike (h : Heap) (v : Int) :
    let plain := ((ofNumber h v).2.commit (ofNumber h v).1).result
    let encoded := ((ofBytes h (Number.encode v)).2.commit (ofBytes h (Number.encode v)).1).result
    ((∃ word, plain = .ok word ∧ encoded = .ok word) ↔ 0 ≤ v ∧ v ≤ 2 ^ 31 - 1 ∨ v = -2 ^ 30) ∧
    (∀ word, plain = .ok word ∨ encoded = .ok word → word.length = 4) ∧
    (2 ^ 31 ≤ v ∧ v ≤ 2 ^ 32 - 1 ∨ v ≤ -2 ^ 31 →
      (∃ word, plain = .ok word) ∧ Family.contract.Stops encoded) ∧
    (2 ^ 32 ≤ v → (if Decimal.isWritable v then Family.contract.Stops plain
      else plain = .error (.misuse .badValue)) ∧ Family.contract.Stops encoded) ∧
    (-(2 ^ 31 - 1) ≤ v → v ≤ -1 → v ≠ -2 ^ 30 →
      ∃ a b, plain = .ok a ∧ encoded = .ok b ∧ a ≠ b) := by
  intro plain encoded
  have hp : plain = (Content.number v).commit.result := congrArg Attempt.result (commit_ofNumber h v)
  have he : encoded = (Content.bytes (Number.encode v)).commit.result :=
    congrArg Attempt.result (commit_ofBytes h _)
  have hplain : (Content.number v).Fits ↔ v ≤ 2 ^ 32 - 1 := Iff.rfl
  have hencoded := Content.fits_encode_iff v
  rw [hp, he]
  refine ⟨?_, ?_, fun hv => ?_, fun hv => ?_, fun hlow hhigh hne => ?_⟩
  · rw [Content.exists_commit_same_iff]
    constructor
    · rintro ⟨_, hfits, hword⟩
      have hsmall := hencoded.mp hfits
      have hmeet := (Content.unsigned_encode_eq_iff hsmall).mp hword
      omega
    · intro hv
      have hsmall : v.natAbs < 2 ^ 31 := by omega
      exact ⟨hplain.mpr (by omega), hencoded.mpr hsmall,
        (Content.unsigned_encode_eq_iff hsmall).mpr (by omega)⟩
  · rintro word (hword | hword)
    all_goals
      obtain ⟨hfits, rfl⟩ := Content.commit_eq_ok_iff.mp hword
      exact Content.length_word hfits
  · have hfits := hplain.mpr (by omega)
    have hwide : ¬ v.natAbs < 2 ^ 31 := by omega
    exact ⟨⟨_, Content.commit_eq_ok_iff.mpr ⟨hfits, rfl⟩⟩,
      Content.commit_refused (mt hencoded.mp hwide)⟩
  · have hlarge : ¬ v ≤ 2 ^ 32 - 1 := by omega
    have hwide : ¬ v.natAbs < 2 ^ 31 := by omega
    exact ⟨Content.commit_refused (mt hplain.mp hlarge),
      Content.commit_refused (mt hencoded.mp hwide)⟩
  · have hfits := hplain.mpr (by omega)
    have hsmall : v.natAbs < 2 ^ 31 := by omega
    have hdiffer : (Content.number v).word ≠ (Content.bytes (Number.encode v)).word := by
      rw [Ne, Content.word_eq_iff hfits (hencoded.mpr hsmall), Content.unsigned_encode_eq_iff hsmall]
      omega
    exact ⟨_, _, Content.commit_eq_ok_iff.mpr ⟨hfits, rfl⟩,
      Content.commit_eq_ok_iff.mpr ⟨hencoded.mpr hsmall, rfl⟩, hdiffer⟩

/-- Where the two meet below zero, and one number beside it. -/
theorem commits_alike_at_neg_two_pow_30 :
    (∃ word, (Content.number (-2 ^ 30)).commit.result = .ok word ∧
      (Content.bytes (Number.encode (-2 ^ 30))).commit.result = .ok word) ∧
    ∃ a b, (Content.number (1 - 2 ^ 30)).commit.result = .ok a ∧
      (Content.bytes (Number.encode (1 - 2 ^ 30))).commit.result = .ok b ∧ a ≠ b :=
  ⟨(commits_alike .empty (-2 ^ 30)).1.mpr (.inr rfl),
    (commits_alike .empty (1 - 2 ^ 30)).2.2.2.2 (by decide) (by decide) (by decide)⟩

end Entry

end ScriptStack
