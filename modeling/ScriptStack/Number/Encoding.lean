import ScriptStack.Bytes.LittleEndian

/-! Script numbers: the magnitude in little-endian bytes, the sign in the top bit of the last byte.
Zero is the empty byte string. -/
namespace ScriptStack.Number

def signBit : UInt8 := 0x80

def signMark (negative : Bool) : Nat := if negative then 128 else 0

/-- The bytes of a positive magnitude. The last byte keeps its top bit free for the sign, so a
magnitude that fills its bytes takes one byte more. -/
def signedBytes (negative : Bool) (n : Nat) : Bytes :=
  if n < 128 then [UInt8.ofNat (n + signMark negative)]
  else UInt8.ofNat (n % 256) :: signedBytes negative (n / 256)
  termination_by n
  decreasing_by omega

def encode (v : Int) : Bytes :=
  if v = 0 then [] else signedBytes (decide (v < 0)) v.natAbs

/-- The last byte may hold no magnitude only where the byte before it has its top bit set and the
sign needs a byte of its own. -/
def isMinimal : Bytes → Bool
  | [] => true
  | [last] => last &&& 0x7f != 0
  | [before, last] => last &&& 0x7f != 0 || before &&& signBit != 0
  | _ :: b :: c :: rest => isMinimal (b :: c :: rest)

def clearBits (n mask : Nat) : Nat := n ^^^ (n &&& mask)

def isNegative (data : Bytes) : Bool :=
  data.getLast?.any fun last => last &&& signBit != 0

def decode (data : Bytes) : Int :=
  if isNegative data then -(clearBits data.value (1 <<< (8 * data.length - 1)) : Nat)
  else data.value

theorem encode_zero : encode 0 = [] := rfl

theorem decode_nil : decode [] = 0 := rfl

theorem signedBytes_of_lt {n : Nat} (h : n < 128) (negative : Bool) :
    signedBytes negative n = [UInt8.ofNat (n + signMark negative)] := by
  rw [signedBytes, if_pos h]

theorem signedBytes_of_le {n : Nat} (h : 128 ≤ n) (negative : Bool) :
    signedBytes negative n = UInt8.ofNat (n % 256) :: signedBytes negative (n / 256) := by
  rw [signedBytes, if_neg (Nat.not_lt.mpr h)]

theorem signedBytes_ne_nil (negative : Bool) (n : Nat) : signedBytes negative n ≠ [] := by
  unfold signedBytes
  split <;> simp

theorem encode_eq_nil {v : Int} : encode v = [] ↔ v = 0 := by
  unfold encode
  split <;> simp_all [signedBytes_ne_nil]

end ScriptStack.Number
