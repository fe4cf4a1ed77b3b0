import ScriptStack.Proofs.Number.Encodings
import ScriptStack.Proofs.Stack.Coincidence
import ScriptStack.Proofs.Stack.Sequence

/-! Slots that can be read as numbers, and the words that they are committed to. What can be read can
be committed; above zero the two views of a slot agree, below zero they part. -/
namespace ScriptStack

theorem Number.value_eq_zero_iff {data : Bytes} (hdata : decode data = 0) :
    data.value = 0 ↔ ¬ ∃ k, data = List.replicate k 0 ++ [0x80] := by
  cases data with
  | nil => simp [Bytes.value]
  | cons b rest =>
    have hk : 1 ≤ (b :: rest).length := Nat.succ_le_of_lt (Nat.succ_pos _)
    have hmem : b :: rest ∈ encodings 0 (b :: rest).length := mem_encodings.mpr ⟨rfl, hdata⟩
    rw [encodings_zero hk] at hmem
    obtain hzero | hminus := hmem
    · have hvalue : Bytes.value (b :: rest) = 0 := by
        rw [hzero]
        exact Bytes.value_replicate_zero _
      refine ⟨fun _ hnegative => ?_, fun _ => hvalue⟩
      obtain ⟨k, hsign⟩ := hnegative
      have hlength : (b :: rest).length - 1 = k := by simp [hsign]
      rw [← hlength] at hsign
      exact zeros_ne hk (hzero.symm.trans hsign)
    · refine ⟨fun hvalue => ?_, fun hnone => absurd ⟨_, hminus⟩ hnone⟩
      have hsign := hvalue
      rw [hminus, Bytes.value_append, Bytes.value_replicate_zero, Nat.zero_add] at hsign
      have hpos : 0 < 256 ^ (List.replicate ((b :: rest).length - 1) (0 : UInt8)).length :=
        Nat.pow_pos (by decide)
      have hbyte : Bytes.value [0x80] = 128 := rfl
      rw [hbyte] at hsign
      omega

namespace Content

variable {c : Content} {n v : Int} {data : Bytes}

def toInt : Content → Int
  | number v => v
  | bytes data => Number.decode data

def Readable : Content → Prop
  | number v => v ≤ 2 ^ 31 - 1
  | bytes data => data.length ≤ 4

theorem toNumber_eq_ok_iff : c.toNumber false = .ok n ↔ c.Readable ∧ c.toInt = n := by
  cases c with
  | number v =>
    have hmax : Limits.maxSigned = 2 ^ 31 - 1 := rfl
    rw [toNumber, Readable, toInt]
    by_cases hv : Limits.maxSigned < v
    · simp [hv]
      omega
    · simp [hv]
      omega
  | bytes data =>
    have hread : (bytes data).toNumber false = Number.read data (.integer 4) false := rfl
    have hsize : (data.length : Int) ≤ 4 ↔ data.length ≤ 4 := by omega
    rw [hread, Number.read_eq_ok_iff, hsize, Readable, toInt]
    simp

theorem overflow_stops_toNumber (hlow : 2 ^ 31 ≤ v) (hhigh : v ≤ 2 ^ 32 - 1) (minimal : Bool) :
    Family.overflow.Stops ((number v).toNumber minimal) := by
  have hout : Limits.maxSigned < v := by
    rw [Limits.maxSigned]
    omega
  rw [toNumber_of_above hout, if_pos (Decimal.isWritable_of_lt (by omega)), Family.stops_error]
  rfl

/-- The two upper bounds on numbers differ, those on bytes are the same. -/
theorem fits_iff_readable : c.Fits ↔
    c.Readable ∨ ∃ v, c = number v ∧ 2 ^ 31 ≤ v ∧ v ≤ 2 ^ 32 - 1 := by
  cases c with
  | number v =>
    have hfits : (number v).Fits ↔ v ≤ 2 ^ 32 - 1 := Iff.rfl
    have hreadable : (number v).Readable ↔ v ≤ 2 ^ 31 - 1 := Iff.rfl
    have hwide : (∃ w, number v = number w ∧ 2 ^ 31 ≤ w ∧ w ≤ 2 ^ 32 - 1) ↔
        2 ^ 31 ≤ v ∧ v ≤ 2 ^ 32 - 1 := by simp
    rw [hfits, hreadable, hwide]
    omega
  | bytes data => simp [Fits, Readable]

/-! The word of a slot, by the number that it stands for. -/

theorem unsigned_of_pos (hc : c.Readable) (hn : 0 < c.toInt) : c.unsigned = c.toInt := by
  cases c with
  | number v =>
    have hv : v ≤ 2 ^ 31 - 1 := hc
    have hpos : 0 < v := hn
    show v % 2 ^ 32 = v
    omega
  | bytes data =>
    have hpos : 0 < Number.decode data := hn
    have hvalue := Number.value_of_decode_pos hpos
    show (data.value : Int) = Number.decode data
    omega

theorem unsigned_number_of_neg (hv : v < 0) :
    (number v).unsigned = ((2 ^ 32 - v.natAbs % 2 ^ 32) % 2 ^ 32 : Nat) := by
  show v % 2 ^ 32 = _
  omega

theorem unsigned_bytes_of_neg (hn : Number.decode data < 0) :
    (bytes data).unsigned =
      ((Number.decode data).natAbs + 2 ^ (8 * data.length - 1) : Nat) := by
  rw [unsigned, Number.value_of_decode_neg hn, Number.magnitudeBits, Nat.add_comm]

theorem unsigned_eq_zero_iff (hc : c.toInt = 0) :
    c.unsigned = 0 ↔ ¬ ∃ k, c = bytes (List.replicate k 0 ++ [0x80]) := by
  cases c with
  | number v =>
    have hv : v = 0 := hc
    simp [hv, unsigned]
  | bytes data =>
    have hzero := Number.value_eq_zero_iff hc
    have hcast : (bytes data).unsigned = 0 ↔ data.value = 0 := Int.ofNat_inj
    simp only [hcast, hzero, bytes.injEq]

theorem word_eq_zeros_iff (hc : c.Fits) : c.word = [0, 0, 0, 0] ↔ c.unsigned = 0 := by
  have hlength : c.word.length = [(0 : UInt8), 0, 0, 0].length := length_word hc
  have hzeros : Bytes.value [0, 0, 0, 0] = 0 := rfl
  rw [← Bytes.value_inj hlength, hzeros, ← value_word]
  exact Int.ofNat_inj.symm

/-- These are the four bytes of a slot that is read as `n`: `n` itself above zero; below it a number
wraps around, and bytes have the sign bit of their length on top; zero is four zeros, but for a
negative zero. -/
structure Writes (c : Content) (n : Int) (word : Bytes) : Prop where
  length : word.length = 4
  positive : 0 < n → word.value = n
  negativeNumber : ∀ v, c = number v → n < 0 →
    word.value = (2 ^ 32 - n.natAbs % 2 ^ 32) % 2 ^ 32
  negativeBytes : ∀ data, c = bytes data → n < 0 →
    word.value = n.natAbs + 2 ^ (8 * data.length - 1)
  zero : n = 0 → (word = [0, 0, 0, 0] ↔ ¬ ∃ k, c = bytes (List.replicate k 0 ++ [0x80]))

theorem Readable.writes (hc : c.Readable) : c.Writes c.toInt c.word where
  length := length_word (fits_iff_readable.mpr (.inl hc))
  positive hn := (value_word c).trans (unsigned_of_pos hc hn)
  negativeNumber := by
    intro v hv hn
    subst hv
    exact Int.ofNat_inj.mp ((value_word _).trans (unsigned_number_of_neg hn))
  negativeBytes := by
    intro data hdata hn
    subst hdata
    exact Int.ofNat_inj.mp ((value_word _).trans (unsigned_bytes_of_neg hn))
  zero hn := (word_eq_zeros_iff (fits_iff_readable.mpr (.inl hc))).trans (unsigned_eq_zero_iff hn)

end Content

namespace Stack

variable {h : Heap} {s : Stack}

theorem run_topNumber_eq_ok_iff {o : Int} {minimal : Bool} {n : Int} :
    ((StackOp.topNumber (.ofInt o) minimal).run h s).attempt.result = .ok (.integer n) ↔
      ∃ e, (s.top (.ofInt o)).result = .ok e ∧ e.toNumber h minimal = .ok n := by
  constructor
  · intro hrun
    obtain ⟨a, ha, hanswer⟩ := Attempt.result_bind_eq_ok.mp hrun
    cases hanswer
    obtain ⟨e, he, hn⟩ := Attempt.result_bind_eq_ok.mp ha
    exact ⟨e, he, (Attempt.result_ofExcept _).symm.trans hn⟩
  · intro hread
    obtain ⟨e, he, hn⟩ := hread
    refine Attempt.result_bind_eq_ok.mpr ⟨n, ?_, rfl⟩
    exact Attempt.result_bind_eq_ok.mpr ⟨e, he, (Attempt.result_ofExcept _).trans hn⟩

theorem exists_offset {e : Entry} (he : e ∈ s.slots) :
    ∃ o : Int, -s.height ≤ o ∧ o ≤ -1 ∧ (s.top (.ofInt o)).result = .ok e := by
  obtain ⟨i, hi⟩ := List.mem_iff_getElem?.mp he
  obtain ⟨hlt, _⟩ := List.getElem?_eq_some_iff.mp hi
  rw [length_slots] at hlt
  exact ⟨(i : Int) - s.height, by omega, by omega, top_of_slot hi⟩

/-- What can be read as a number can be committed, to four bytes that the number tells; what can be
committed can be read, but for numbers of 32 bits. So a stack on which every offset reads a number can
be committed. -/
theorem readable_commits :
    (∀ (h : Heap) (e : Entry) (n : Int), e.toNumber h false = .ok n →
      ∃ word, (e.commit h).result = .ok word ∧ (e.content h).Writes n word) ∧
    (∀ (h : Heap) (e : Entry) (word : Bytes), (e.commit h).result = .ok word →
      (∃ n, e.toNumber h false = .ok n) ∨
        ∃ v, e.content h = .number v ∧ 2 ^ 31 ≤ v ∧ v ≤ 2 ^ 32 - 1 ∧
          Family.overflow.Stops (e.toNumber h false)) ∧
    ∀ (h : Heap) (s : Stack),
      (∀ o : Int, -s.height ≤ o → o ≤ -1 → ∃ n,
        ((StackOp.topNumber (.ofInt o) false).run h s).attempt.result = .ok (.integer n)) →
      ∃ data, (StackOp.commit.run h s).attempt.result = .ok (.bytes data) := by
  refine ⟨fun h e n hn => ?_, fun h e word hword => ?_, fun h s hs => ?_⟩
  · obtain ⟨hreadable, rfl⟩ := Content.toNumber_eq_ok_iff.mp hn
    have hfits := Content.fits_iff_readable.mpr (.inl hreadable)
    exact ⟨_, Content.commit_eq_ok_iff.mpr ⟨hfits, rfl⟩, hreadable.writes⟩
  · have hfits := (Content.commit_eq_ok_iff.mp hword).1
    obtain hreadable | ⟨v, hv, hlow, hhigh⟩ := Content.fits_iff_readable.mp hfits
    · exact .inl ⟨_, Content.toNumber_eq_ok_iff.mpr ⟨hreadable, rfl⟩⟩
    · refine .inr ⟨v, hv, hlow, hhigh, ?_⟩
      rw [Entry.toNumber, hv]
      exact Content.overflow_stops_toNumber hlow hhigh false
  · have hfit : ∀ e ∈ s.slots, (e.content h).Fits := by
      intro e he
      obtain ⟨o, hlow, hhigh, htop⟩ := exists_offset he
      obtain ⟨n, hn⟩ := hs o hlow hhigh
      obtain ⟨f, hf, hnumber⟩ := run_topNumber_eq_ok_iff.mp hn
      cases htop.symm.trans hf
      exact Content.fits_iff_readable.mpr (.inl (Content.toNumber_eq_ok_iff.mp hnumber).1)
    exact ⟨_, StackOp.run_commit_eq_ok.mpr (commitment_eq_ok_iff.mpr ⟨hfit, rfl⟩)⟩

/-- A number far below the window, a negative zero of two bytes and a padded -5: each can be read, so
the stack of the three commits, and the words of the last two have a sign bit where their bytes end. -/
theorem readable_commits_below_zero :
    let h : Heap := ⟨[[0, 0x80], [5, 0, 0x80]], [.number (-2 ^ 40 - 1), .buffer ⟨0⟩, .buffer ⟨1⟩]⟩
    let s : Stack := ⟨[⟨2⟩, ⟨1⟩, ⟨0⟩]⟩
    (∃ data, (StackOp.commit.run h s).attempt.result = .ok (.bytes data)) ∧
    (∃ word, ((Entry.mk 0).commit h).result = .ok word ∧ word.value = 2 ^ 32 - 1) ∧
    (∃ word, ((Entry.mk 1).commit h).result = .ok word ∧ word ≠ [0, 0, 0, 0]) ∧
    (∃ word, ((Entry.mk 2).commit h).result = .ok word ∧ word.value = 5 + 2 ^ 23) ∧
    ∃ n, (Entry.mk 2).toNumber h false = .ok n := by
  intro h s
  obtain ⟨hread, hback, hall⟩ := readable_commits
  obtain ⟨low, hlow, hlowWord⟩ := hread h ⟨0⟩ (-2 ^ 40 - 1) rfl
  obtain ⟨zero, hzero, hzeroWord⟩ := hread h ⟨1⟩ 0 (by decide +kernel)
  obtain ⟨five, hfive, hfiveWord⟩ := hread h ⟨2⟩ (-5) (by decide +kernel)
  refine ⟨hall h s ?_, ⟨low, hlow, ?_⟩, ⟨zero, hzero, fun hzeros => ?_⟩, ⟨five, hfive, ?_⟩, ?_⟩
  · intro o ho hneg
    have hheight : (s.height : Int) = 3 := rfl
    obtain rfl | rfl | rfl : o = -3 ∨ o = -2 ∨ o = -1 := by omega
    · exact ⟨_, run_topNumber_eq_ok_iff.mpr ⟨⟨0⟩, rfl, rfl⟩⟩
    · exact ⟨0, run_topNumber_eq_ok_iff.mpr ⟨⟨1⟩, rfl, by decide +kernel⟩⟩
    · exact ⟨-5, run_topNumber_eq_ok_iff.mpr ⟨⟨2⟩, rfl, by decide +kernel⟩⟩
  · exact hlowWord.negativeNumber _ rfl (by decide)
  · exact (hzeroWord.zero rfl).mp hzeros ⟨1, rfl⟩
  · exact hfiveWord.negativeBytes _ rfl (by decide)
  · obtain hn | ⟨v, hv, _⟩ := hback h ⟨2⟩ five hfive
    · exact hn
    · cases hv

end Stack

end ScriptStack
