import ScriptStack.Bytes.Hex

/-! Byte strings as numbers, least significant byte first. -/
namespace ScriptStack.Bytes

def value : Bytes → Nat
  | [] => 0
  | b :: rest => b.toNat + 256 * value rest

/-- The low `width` bytes of a number; what does not fit is dropped. -/
def word : (width n : Nat) → Bytes
  | 0, _ => []
  | width + 1, n => UInt8.ofNat (n % 256) :: word width (n / 256)

def padTo (width : Nat) (data : Bytes) : Bytes :=
  data ++ List.replicate (width - data.length) 0

theorem length_word (width n : Nat) : (word width n).length = width := by
  induction width generalizing n with
  | zero => rfl
  | succ width ih => simp [word, ih]

end ScriptStack.Bytes
