import ScriptStack.Proofs.Bytes.LittleEndian
import ScriptStack.Proofs.Number.SignMagnitude

/-! Numbers in a given number of bytes: a string is made of its length, its sign and its magnitude,
and any sign and any magnitude below the sign bit make one. -/
namespace ScriptStack.Number

/-- A magnitude in so many bytes, with the sign in the top bit of the last one. -/
def signedWord (width : Nat) (negative : Bool) (n : Nat) : Bytes :=
  Bytes.word width (n + if negative then 2 ^ (8 * width - 1) else 0)

theorem length_signedWord (width : Nat) (negative : Bool) (n : Nat) :
    (signedWord width negative n).length = width :=
  Bytes.length_word _ _

theorem signedWord_ne_nil {width : Nat} (hw : 0 < width) (negative : Bool) (n : Nat) :
    signedWord width negative n ≠ [] := by
  intro h
  have hlength := length_signedWord width negative n
  rw [h] at hlength
  simp at hlength
  omega

theorem pow_width {width : Nat} (hw : 0 < width) : 256 ^ width = 2 * 2 ^ (8 * width - 1) := by
  have hbits : 8 * width = 8 * width - 1 + 1 := by omega
  calc
    256 ^ width = 2 ^ (8 * width) := by rw [Nat.pow_mul]
    _ = 2 ^ (8 * width - 1 + 1) := by rw [← hbits]
    _ = 2 * 2 ^ (8 * width - 1) := by rw [Nat.pow_succ, Nat.mul_comm]

variable {width n : Nat}

theorem value_signedWord (hw : 0 < width) (hn : n < 2 ^ (8 * width - 1)) (negative : Bool) :
    (signedWord width negative n).value = n + if negative then 2 ^ (8 * width - 1) else 0 := by
  have hroom := pow_width hw
  rw [signedWord, Bytes.value_word]
  apply Nat.mod_eq_of_lt
  cases negative <;> simp <;> omega

theorem sign_magnitude_signedWord (hw : 0 < width) (hn : n < 2 ^ (8 * width - 1))
    (negative : Bool) :
    isNegative (signedWord width negative n) = negative ∧
      magnitude (signedWord width negative n) = n := by
  have hne := signedWord_ne_nil hw negative n
  have hvalue := value_eq _ hne
  have hlt := magnitude_lt _ hne
  rw [magnitudeBits, length_signedWord] at hvalue hlt
  rw [value_signedWord hw hn negative] at hvalue
  cases hs : isNegative (signedWord width negative n) <;> cases negative <;>
    simp [hs] at hvalue ⊢ <;> omega

theorem decode_signedWord (hw : 0 < width) (hn : n < 2 ^ (8 * width - 1)) (negative : Bool) :
    decode (signedWord width negative n) = if negative then -(n : Int) else n := by
  obtain ⟨hsign, hmagnitude⟩ := sign_magnitude_signedWord hw hn negative
  rw [decode_eq, hsign, hmagnitude]

theorem eq_signedWord {data : Bytes} (h : data ≠ []) :
    data = signedWord data.length (isNegative data) (magnitude data) := by
  have hw : 0 < data.length := List.length_pos_iff.mpr h
  have hlength : data.length = (signedWord data.length (isNegative data) (magnitude data)).length :=
    (length_signedWord _ _ _).symm
  apply (Bytes.value_inj hlength).mp
  rw [value_signedWord hw (magnitude_lt data h), value_eq data h, Nat.add_comm, magnitudeBits]

end ScriptStack.Number
