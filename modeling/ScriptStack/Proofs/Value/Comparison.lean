import Mathlib.Algebra.Group.Nat.Defs
import ScriptStack.Proofs.Number.Width
import ScriptStack.Value.Order

/-! Script numbers beside other values: what is worth a number stands to them as that number does, on
either side. Other values are unequal to them or cannot be read. -/
namespace ScriptStack

namespace Number

variable {data : Bytes}

theorem read_default_of_le (h : data.length ≤ 4) :
    read data defaultLimit false = .ok (decode data) := by
  have hfits : (data.length : Int) ≤ Limits.numberBytes := Int.ofNat_le.mpr h
  exact read_eq_ok_iff.mpr ⟨hfits, nofun, rfl⟩

theorem read_default_of_lt (h : 4 < data.length) :
    read data defaultLimit false = .error (.numberTooLong data.length defaultLimit) := by
  have hbelow : defaultLimit.below data.length = true := by
    rw [defaultLimit, Quantity.below_integer]
    exact decide_eq_true (Int.ofNat_lt.mpr h)
  rw [read_of_below hbelow, defaultLimit, Fault.raised_numberTooLong,
    if_pos (Decimal.isWritable_of_lt (by decide))]

end Number

theorem Relation.exists_unique_holds (m n : Int) :
    ∃! r, r ∈ [Relation.lt, .eq, .gt] ∧ r.holds m n = true := by
  obtain hlt | rfl | hgt := Int.lt_trichotomy m n
  · refine ⟨.lt, by simp [holds, hlt], fun r hr => ?_⟩
    cases r <;> simp [holds] at hr ⊢ <;> omega
  · refine ⟨.eq, by simp [holds], fun r hr => ?_⟩
    cases r <;> simp [holds] at hr ⊢
  · refine ⟨.gt, by simp [holds, hgt], fun r hr => ?_⟩
    cases r <;> simp [holds] at hr ⊢ <;> omega

namespace ScriptNumber

variable {n : Int} {fault : Fault} {data : Bytes}

theorem relate_of_value {x : Comparand} (hx : x.value = .ok n) (r : Relation) (a : ScriptNumber) :
    a.relate r x = .ok (r.holds a.value n) := by
  cases x with
  | other kind => cases hx
  | _ => cases r <;> simp only [relate, hx, Except.map]

theorem relate_encoded_of_error (hdata : (Comparand.encoded data).value = .error fault) (r : Relation)
    (a : ScriptNumber) : a.relate r (.encoded data) = .error fault := by
  cases r <;> simp only [relate, hdata, Except.map]

end ScriptNumber

def Kind.isNumeric : Kind → Bool
  | integer | flag | scriptNumber | bytes | byteArray => true
  | _ => false

theorem Entry.kind_not_numeric (h : Heap) (e : Entry) : (e.kind h).isNumeric = false := by
  rw [kind]
  cases h.operand e <;> rfl

namespace Value

def encoding? (h : Heap) : Value → Option Bytes
  | bytes data => some data
  | byteArray b => some (h.read b)
  | _ => none

/-- What an operand is worth: itself, if it is a number, or the number that its bytes encode, minimally
or not, if there are at most four of them. -/
inductive Worth (h : Heap) : Value → Int → Prop
  | number (n : ScriptNumber) : Worth h (number n) n.value
  | integer (v : Int) : Worth h (integer v) v
  | flag (b : Bool) : Worth h (flag b) (Quantity.flagValue b)
  | encoded {x : Value} {data : Bytes} :
    x.encoding? h = some data → data.length ≤ 4 → Worth h x (Number.decode data)

variable {σ : Store} {a : ScriptNumber} {x : Value} {n : Int} {data : Bytes}

theorem comparand_of_encoding {h : Heap} (hx : x.encoding? h = some data) :
    x.comparand h = .encoded data := by
  cases x <;> simp [encoding?] at hx <;> rw [comparand, hx]

theorem comparand_of_not_numeric {h : Heap} (hx : (x.kind h).isNumeric = false) :
    x.comparand h = .other (x.kind h) := by
  cases x <;> first | rfl | cases hx

theorem worth_or_long_or_other (h : Heap) (x : Value) : (∃ n, x.Worth h n) ∨
    (∃ data, x.encoding? h = some data ∧ 4 < data.length) ∨ (x.kind h).isNumeric = false := by
  cases hx : x.encoding? h with
  | some data =>
    by_cases hsize : data.length ≤ 4
    · exact .inl ⟨_, .encoded hx hsize⟩
    · exact .inr (.inl ⟨data, rfl, Nat.not_le.mp hsize⟩)
  | none =>
    cases x with
    | number n => exact .inl ⟨_, .number n⟩
    | integer v => exact .inl ⟨_, .integer v⟩
    | flag b => exact .inl ⟨_, .flag b⟩
    | bytes data => cases hx
    | byteArray b => cases hx
    | entry e => exact .inr (.inr (e.kind_not_numeric h))
    | _ => exact .inr (.inr rfl)

theorem value_comparand_of_worth {h : Heap} (hx : x.Worth h n) : (x.comparand h).value = .ok n := by
  cases hx with
  | number m => rfl
  | integer v => rfl
  | flag b => rfl
  | encoded hdata hsize =>
    rw [comparand_of_encoding hdata]
    exact Number.read_default_of_le hsize

theorem relate_number (σ : Store) (r : Relation) (a : ScriptNumber) (x : Value) :
    relate σ r (number a) x = a.relate r (x.comparand σ.heap) := by
  rw [relate]

theorem relate_before_number (σ : Store) (r : Relation) (x : Value) (a : ScriptNumber) :
    relate σ r x (number a) = a.relate r.converse (x.comparand σ.heap) := by
  cases x with
  | number n =>
    rw [relate_number, comparand, comparand, ScriptNumber.relate_of_value rfl,
      ScriptNumber.relate_of_value rfl, Relation.holds_converse]
  | _ => simp [relate]

theorem relate_number_of_worth (hx : x.Worth σ.heap n) (r : Relation) (a : ScriptNumber) :
    relate σ r (number a) x = .ok (r.holds a.value n) := by
  rw [relate_number, ScriptNumber.relate_of_value (value_comparand_of_worth hx)]

theorem relate_before_number_of_worth (hx : x.Worth σ.heap n) (r : Relation) (a : ScriptNumber) :
    relate σ r x (number a) = .ok (r.holds n a.value) := by
  rw [relate_before_number, ScriptNumber.relate_of_value (value_comparand_of_worth hx),
    Relation.holds_converse]

theorem relate_number_of_long (hx : x.encoding? σ.heap = some data) (hlong : 4 < data.length)
    (r : Relation) (a : ScriptNumber) :
    relate σ r (number a) x = .error (.numberTooLong data.length Number.defaultLimit) ∧
      relate σ r x (number a) = .error (.numberTooLong data.length Number.defaultLimit) := by
  have hread : (x.comparand σ.heap).value =
      .error (.numberTooLong data.length Number.defaultLimit) := by
    rw [comparand_of_encoding hx]
    exact Number.read_default_of_lt hlong
  rw [relate_number, relate_before_number, comparand_of_encoding hx] at *
  exact ⟨ScriptNumber.relate_encoded_of_error hread r a,
    ScriptNumber.relate_encoded_of_error hread r.converse a⟩

theorem relate_eq_number_iff : relate σ .eq (number a) x = .ok true ↔ x.Worth σ.heap a.value := by
  constructor
  · intro hequal
    obtain ⟨n, hn⟩ | ⟨data, hdata, hlong⟩ | hother := worth_or_long_or_other σ.heap x
    · rw [relate_number_of_worth hn, Except.ok.injEq] at hequal
      have hvalue : a.value = n := of_decide_eq_true hequal
      rwa [hvalue]
    · rw [(relate_number_of_long hdata hlong .eq a).1] at hequal
      cases hequal
    · rw [relate_number, comparand_of_not_numeric hother] at hequal
      cases hequal
  · intro hx
    rw [relate_number_of_worth hx]
    exact congrArg Except.ok (decide_eq_true rfl)

theorem worth_encode (h : Heap) {v : Int} (hv : v.natAbs ≤ 2 ^ 31 - 1) :
    Worth h (bytes (Number.encode v)) v := by
  have hwidth := Number.length_encode_le_iff v (by omega : 1 ≤ 4)
  have hworth : Worth h (bytes (Number.encode v)) (Number.decode (Number.encode v)) :=
    .encoded rfl (by omega)
  rwa [Number.decode_encode] at hworth

/-- How a script number stands to an operand: as its value stands to what the operand is worth, on
either side, so that it is less, equal or greater, and one of these only. -/
structure Ordered (σ : Store) (a : ScriptNumber) (x : Value) (n : Int) : Prop where
  left : ∀ r, relate σ r (number a) x = .ok (r.holds a.value n)
  right : ∀ r, relate σ r x (number a) = .ok (r.holds n a.value)
  mirrored : ∀ r : Relation, relate σ r.converse x (number a) = relate σ r (number a) x
  one : ∃! r, r ∈ [Relation.lt, .eq, .gt] ∧ relate σ r (number a) x = .ok true

/-- How a script number stands to a value of another kind: it is unequal to it, and which of them comes
first cannot be asked, on either side. -/
structure Unordered (σ : Store) (a : ScriptNumber) (x : Value) : Prop where
  eq : relate σ .eq (number a) x = .ok false ∧ relate σ .eq x (number a) = .ok false
  ne : relate σ .ne (number a) x = .ok true ∧ relate σ .ne x (number a) = .ok true
  order : ∀ r, isOrder r = true → ∃ fault : Fault, fault.family? = some .number ∧
    fault = .notComparable (x.kind σ.heap) ∧
    relate σ r (number a) x = .error fault ∧ relate σ r x (number a) = .error fault

theorem Worth.ordered (hx : x.Worth σ.heap n) (a : ScriptNumber) : Ordered σ a x n where
  left r := relate_number_of_worth hx r a
  right r := relate_before_number_of_worth hx r a
  mirrored r := by
    rw [relate_number_of_worth hx, relate_before_number_of_worth hx, Relation.holds_converse]
  one := by
    simp only [relate_number_of_worth hx, Except.ok.injEq]
    exact Relation.exists_unique_holds a.value n

theorem unordered_of_not_numeric (hx : (x.kind σ.heap).isNumeric = false) (a : ScriptNumber) :
    Unordered σ a x := by
  constructor <;> simp only [relate_number, relate_before_number, comparand_of_not_numeric hx]
  · exact ⟨rfl, rfl⟩
  · exact ⟨rfl, rfl⟩
  · intro r hr
    refine ⟨.notComparable (x.kind σ.heap), rfl, rfl, ?_⟩
    cases r <;> first | exact ⟨rfl, rfl⟩ | cases hr

/-- A script number compares with all values as an integer does. With what is worth a number all six
relations are those of the two integers, on either side and for whatever encoding; longer encodings are
refused, and so is that of a number beyond four bytes; a value of another kind is unequal and has no
place in the order. -/
theorem compared_as_integers (σ : Store) (a : ScriptNumber) :
    (∀ x n, x.Worth σ.heap n → Ordered σ a x n ∧ ∀ y, y.Worth σ.heap n → ∀ r,
      relate σ r (number a) y = relate σ r (number a) x ∧
      relate σ r y (number a) = relate σ r x (number a)) ∧
    (∀ x data, x.encoding? σ.heap = some data → 4 < data.length → ∀ r,
      Family.tooLong.Stops (relate σ r (number a) x) ∧
      Family.tooLong.Stops (relate σ r x (number a))) ∧
    (∀ v, let n := ScriptNumber.ofInt v
      (v.natAbs ≤ 2 ^ 31 - 1 → relate σ .eq (number n) (bytes n.toBytes.1) = .ok true) ∧
      (2 ^ 31 - 1 < v.natAbs → ∀ r,
        Family.tooLong.Stops (relate σ r (number n) (bytes n.toBytes.1)))) ∧
    (∀ x, (x.kind σ.heap).isNumeric = false → Unordered σ a x) := by
  have hlong : ∀ (b : ScriptNumber) x data, x.encoding? σ.heap = some data → 4 < data.length → ∀ r,
      Family.tooLong.Stops (relate σ r (number b) x) ∧
      Family.tooLong.Stops (relate σ r x (number b)) := by
    intro b x data hdata hsize r
    obtain ⟨hleft, hright⟩ := relate_number_of_long hdata hsize r b
    rw [hleft, hright]
    exact ⟨Family.stops_error.mpr rfl, Family.stops_error.mpr rfl⟩
  refine ⟨fun x n hx => ⟨hx.ordered a, fun y hy r => ⟨?_, ?_⟩⟩, hlong a, fun v => ?_,
    fun x hx => unordered_of_not_numeric hx a⟩
  · rw [relate_number_of_worth hx, relate_number_of_worth hy]
  · rw [relate_before_number_of_worth hx, relate_before_number_of_worth hy]
  · intro n
    refine ⟨fun hsmall => relate_eq_number_iff.mpr (worth_encode σ.heap hsmall), fun hlarge r => ?_⟩
    have hwidth := Number.length_encode_le_iff v (by omega : 1 ≤ 4)
    have hsize : 4 < (Number.encode v).length := by omega
    exact (hlong n _ _ rfl hsize r).1

/-- The number 200 beside a buffer that encodes 255 with a byte to spare, beside five bytes, beside the
encoding of a number just too large, and beside a text. -/
theorem compared_200 :
    let σ : Store := ⟨⟨[[0xff, 0, 0]], []⟩, [], 0⟩
    let a := ScriptNumber.ofInt 200
    Ordered σ a (byteArray ⟨0⟩) 255 ∧
    (∀ r, Family.tooLong.Stops (relate σ r (bytes [200, 0, 0, 0, 0]) (number a))) ∧
    (∀ r, Family.tooLong.Stops (relate σ r (number (.ofInt (2 ^ 31)))
      (bytes (ScriptNumber.ofInt (2 ^ 31)).toBytes.1))) ∧
    Unordered σ a (text "200") := by
  intro σ a
  obtain ⟨hworth, hlong, hown, hother⟩ := compared_as_integers σ a
  have hbuffer : (byteArray ⟨0⟩).encoding? σ.heap = some [0xff, 0, 0] := rfl
  refine ⟨(hworth (byteArray ⟨0⟩) 255 ?_).1, fun r => ?_, fun r => ?_, hother _ rfl⟩
  · exact .encoded hbuffer (by decide)
  · exact (hlong (bytes [200, 0, 0, 0, 0]) _ rfl (by decide) r).2
  · exact (hown (2 ^ 31)).2 (by decide) r

end Value

end ScriptStack
