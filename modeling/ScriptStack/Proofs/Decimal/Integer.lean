import ScriptStack.Decimal.Text

/-! Integers of any size are read back from their decimal digits. -/
namespace ScriptStack.Decimal

def natural? (digits : List Char) : Option Nat :=
  if !digits.isEmpty && digits.all Char.isDigit then some (Nat.ofDigitChars 10 digits 0) else none

/-- Digits with or without a minus before them, as many as there are. -/
def integer? : List Char → Option Int
  | '-' :: digits => (natural? digits).map fun n : Nat => -(n : Int)
  | digits => (natural? digits).map Int.ofNat

theorem isDigit_of_mem_toDigits {n : Nat} {c : Char} (hc : c ∈ Nat.toDigits 10 n) :
    c.isDigit = true :=
  Nat.isDigit_of_mem_toDigits (by omega) (by omega) hc

theorem natural?_toDigits (n : Nat) : natural? (Nat.toDigits 10 n) = some n := by
  have hsome : (Nat.toDigits 10 n).isEmpty = false := by
    rw [List.isEmpty_eq_false_iff]
    exact Nat.toDigits_ne_nil
  have hdigits : (Nat.toDigits 10 n).all Char.isDigit = true :=
    List.all_eq_true.mpr fun c => isDigit_of_mem_toDigits
  rw [natural?, hsome, hdigits, Nat.ofDigitChars_ten_toDigits]
  rfl

theorem integerDigits_eq_cons (v : Int) : ∃ c rest, integerDigits v = c :: rest ∧
    (c = '-' ∨ c.isDigit = true) ∧ ∀ d ∈ rest, d.isDigit = true := by
  have hdigits : ∀ d ∈ Nat.toDigits 10 v.natAbs, d.isDigit = true :=
    fun d => isDigit_of_mem_toDigits
  have hsome : Nat.toDigits 10 v.natAbs ≠ [] := Nat.toDigits_ne_nil
  unfold integerDigits
  split
  · exact ⟨'-', _, rfl, .inl rfl, hdigits⟩
  · obtain ⟨c, rest, hcons⟩ := List.exists_cons_of_ne_nil hsome
    rw [hcons] at hdigits ⊢
    exact ⟨c, rest, rfl, .inr (hdigits c List.mem_cons_self), fun d hd =>
      hdigits d (List.mem_cons_of_mem c hd)⟩

theorem of_mem_integerDigits {P : Char → Prop} (hminus : P '-')
    (hdigit : ∀ c : Char, c.isDigit = true → P c) {v : Int} {c : Char}
    (hc : c ∈ integerDigits v) : P c := by
  obtain ⟨d, rest, hv, hd, hrest⟩ := integerDigits_eq_cons v
  rw [hv] at hc
  obtain rfl | hc := List.mem_cons.mp hc
  · obtain rfl | hd := hd
    · exact hminus
    · exact hdigit c hd
  · exact hdigit c (hrest c hc)

theorem integer?_of_digits {digits : List Char} (h : ∀ c ∈ digits, c.isDigit = true) :
    integer? digits = (natural? digits).map Int.ofNat := by
  unfold integer?
  split
  · cases h '-' List.mem_cons_self
  · rfl

theorem integer?_integerDigits (v : Int) : integer? (integerDigits v) = some v := by
  unfold integerDigits
  split
  · rw [integer?, natural?_toDigits, Option.map_some]
    exact congrArg some (by omega)
  · rw [integer?_of_digits fun c => isDigit_of_mem_toDigits, natural?_toDigits, Option.map_some]
    exact congrArg some (Int.natAbs_of_nonneg (by omega))

theorem integerDigits_inj {v w : Int} : integerDigits v = integerDigits w ↔ v = w := by
  refine ⟨fun h => ?_, fun h => by rw [h]⟩
  have hread := integer?_integerDigits v
  rw [h, integer?_integerDigits] at hread
  exact (Option.some.inj hread).symm

theorem toList_integerText (v : Int) : (integerText v).toList = integerDigits v :=
  String.toList_ofList

end ScriptStack.Decimal
