import Mathlib.Algebra.Group.Nat.Defs
import ScriptStack.Bytes.LittleEndian

/-! Byte strings as numbers: what strings put together hold, and what a word holds. -/
namespace ScriptStack.Bytes

theorem value_append (a b : Bytes) : value (a ++ b) = value a + 256 ^ a.length * value b := by
  induction a with
  | nil => simp [value]
  | cons x rest ih =>
    simp only [List.cons_append, value, ih, List.length_cons, Nat.pow_succ]
    rw [Nat.mul_add, ← Nat.mul_assoc, Nat.mul_comm 256 (256 ^ rest.length), Nat.add_assoc]

theorem value_replicate_zero (n : Nat) : value (List.replicate n 0) = 0 := by
  induction n with
  | zero => rfl
  | succ n ih => simp [List.replicate_succ, value, ih]

theorem value_word (width n : Nat) : value (word width n) = n % 256 ^ width := by
  induction width generalizing n with
  | zero => simp [word, value, Nat.mod_one]
  | succ width ih =>
    have h : (UInt8.ofNat (n % 256)).toNat = n % 256 := by simp
    rw [word, value, ih, h, Nat.pow_succ, Nat.mul_comm (256 ^ width), Nat.mod_mul]

theorem word_value (data : Bytes) : word data.length (value data) = data := by
  induction data with
  | nil => rfl
  | cons b rest ih =>
    have hb := b.toNat_lt
    have hlow : (b.toNat + 256 * value rest) % 256 = b.toNat := by omega
    have hhigh : (b.toNat + 256 * value rest) / 256 = value rest := by omega
    rw [List.length_cons, value, word, hlow, hhigh, ih, UInt8.ofNat_toNat]

theorem value_inj {a b : Bytes} (hlength : a.length = b.length) : value a = value b ↔ a = b := by
  constructor
  · intro h
    rw [← word_value a, ← word_value b, h, hlength]
  · intro h
    rw [h]

end ScriptStack.Bytes
