import ScriptStack.Text.Blank

/-! Byte strings and their hexadecimal text: two lowercase digits a byte, high half first. -/
namespace ScriptStack

abbrev Bytes := List UInt8

namespace Bytes

def hexDigits : Bytes → List Char
  | [] => []
  | b :: rest =>
    Nat.digitChar (b.toNat / 16) :: Nat.digitChar (b.toNat % 16) :: hexDigits rest

def hex (data : Bytes) : String := String.ofList data.hexDigits

def digitValue? (c : Char) : Option Nat :=
  if '0' ≤ c ∧ c ≤ '9' then some (c.toNat - '0'.toNat)
  else if 'a' ≤ c ∧ c ≤ 'f' then some (c.toNat - 'a'.toNat + 10)
  else if 'A' ≤ c ∧ c ≤ 'F' then some (c.toNat - 'A'.toNat + 10)
  else none

/-- Reads digits of either case; a digit without its partner is refused. Blanks may stand before
each byte and at the end. -/
def ofHexDigits? : List Char → Option Bytes
  | [] => some []
  | [c] => if Blank.isAscii c then some [] else none
  | hi :: lo :: rest =>
    if Blank.isAscii hi then ofHexDigits? (lo :: rest)
    else do
      let h ← digitValue? hi
      let l ← digitValue? lo
      let tail ← ofHexDigits? rest
      return UInt8.ofNat (16 * h + l) :: tail

def ofHex? (text : String) : Option Bytes := ofHexDigits? text.toList

theorem digitValue?_digitChar {n : Nat} (h : n < 16) : digitValue? (Nat.digitChar n) = some n :=
  (by decide : ∀ k : Fin 16, digitValue? (Nat.digitChar k) = some k.val) ⟨n, h⟩

theorem isAscii_digitChar {n : Nat} (h : n < 16) : Blank.isAscii (Nat.digitChar n) = false :=
  (by decide : ∀ k : Fin 16, Blank.isAscii (Nat.digitChar k) = false) ⟨n, h⟩

theorem toList_hex (data : Bytes) : data.hex.toList = data.hexDigits := String.toList_ofList

theorem ofHexDigits?_hexDigits (data : Bytes) : ofHexDigits? data.hexDigits = some data := by
  induction data with
  | nil => rfl
  | cons b rest ih =>
    have hb := b.toNat_lt
    have hi := digitValue?_digitChar (show b.toNat / 16 < 16 by omega)
    have lo := digitValue?_digitChar (Nat.mod_lt b.toNat (show 0 < 16 by omega))
    have byte : UInt8.ofNat (16 * (b.toNat / 16) + b.toNat % 16) = b := by
      rw [Nat.div_add_mod]; exact UInt8.ofNat_toNat
    have mark := isAscii_digitChar (show b.toNat / 16 < 16 by omega)
    simp only [hexDigits, ofHexDigits?, mark, Bool.false_eq_true, if_false, hi, lo, ih,
      Option.bind_eq_bind, Option.bind_some, byte, Option.pure_def]

theorem hexDigits_inj {a b : Bytes} : a.hexDigits = b.hexDigits ↔ a = b := by
  refine ⟨fun h => ?_, fun h => by rw [h]⟩
  have hread := ofHexDigits?_hexDigits a
  rw [h, ofHexDigits?_hexDigits] at hread
  exact (Option.some.inj hread).symm

theorem hex_inj {a b : Bytes} : a.hex = b.hex ↔ a = b := by
  rw [← String.toList_inj, toList_hex, toList_hex, hexDigits_inj]

theorem of_mem_hexDigits {P : Char → Prop} (hP : ∀ n : Fin 16, P (Nat.digitChar n)) {data : Bytes}
    {c : Char} (hc : c ∈ data.hexDigits) : P c := by
  induction data with
  | nil => cases hc
  | cons b rest ih =>
    have hb := b.toNat_lt
    obtain rfl | hc := List.mem_cons.mp hc
    · exact hP ⟨b.toNat / 16, by omega⟩
    · obtain rfl | hc := List.mem_cons.mp hc
      · exact hP ⟨b.toNat % 16, by omega⟩
      · exact ih hc

end Bytes

end ScriptStack
