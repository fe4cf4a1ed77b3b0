import ScriptStack.Proofs.Stack.Notation
import ScriptStack.Proofs.Stack.Request

/-! Places of a stack, counted from the bottom and from the top: the two ways to count find the same
slots, and neither finds one outside. -/
namespace ScriptStack

namespace Content

/-- What a dictionary has for a slot: the digits of its bytes, or the number that they are, read whole
and as a minimal encoding. -/
def Notes (c : Content) (item : Json.Item) : Prop :=
  match c with
  | bytes data => item = .text data.hex
  | number _ => ∃ v, item = .integer v ∧ ∀ limit : Int, c.toBytes.length ≤ limit →
      Number.read c.toBytes (.integer limit) true = .ok v

theorem notes_item (c : Content) : c.Notes c.item := by
  cases c with
  | bytes data => rfl
  | number v =>
    refine ⟨v, rfl, fun limit hlimit => ?_⟩
    exact Number.read_eq_ok_iff.mpr ⟨hlimit, fun _ => Number.isMinimal_encode v,
      Number.decode_encode v⟩

end Content

namespace Stack

variable {h : Heap} {s : Stack} {e : Entry} {i : Nat}

theorem getElem?_slots_of_depth (hi : i < s.height) :
    s.entries[s.height - 1 - i]? = s.slots[i]? := by
  rw [slots, List.getElem?_reverse hi]
  rfl

theorem entryAt_of_slot (hi : s.slots[i]? = some e) : s.entryAt (.ofInt i) = .done e := by
  obtain ⟨hlt, _⟩ := List.getElem?_eq_some_iff.mp hi
  rw [length_slots] at hlt
  have hdepth : s.depth? (.ofInt i) = some (s.height - 1 - i) := by
    simp [depth?, Position.ofInt, hlt]
  rw [entryAt, hdepth, Option.bind_some, getElem?_slots_of_depth hlt, hi]

theorem lookup_of_slot (hi : s.slots[i]? = some e) :
    (s.dictionary h).lookup i = some (e.content h).item := by
  rw [lookup_dictionary, contents, List.getElem?_map, hi]
  rfl

end Stack

namespace Request

variable {i o : Int} {height : Nat}

theorem place_unwritten_iff : (place (.ofInt i) height).unwritten ↔
    (place (.ofInt i) height).broken ∧ Decimal.isWritable i = false :=
  and_congr_right' Decimal.text?_eq_none_iff

theorem peek_broken_iff : (peek (.ofInt o) height).broken ↔ 0 ≤ o := by
  simp [peek, Position.ofInt]

theorem peek_deep_iff :
    (∃ d, (peek (.ofInt o) height).depth? = some d ∧ height < d) ↔ o < -height := by
  have hdepth : (peek (.ofInt o) height).depth? = if o < 0 then some (-o) else none := rfl
  rw [hdepth]
  constructor
  · intro hdeep
    obtain ⟨d, hd, hdeep⟩ := hdeep
    split at hd
    · cases hd
      omega
    · cases hd
  · intro hlow
    exact ⟨-o, if_pos (by omega), by omega⟩

theorem peek_unwritten_iff : (peek (.ofInt o) height).unwritten ↔
    ¬ (-height ≤ o ∧ o ≤ -1) ∧ Decimal.isWritable o = false := by
  have hoffset : (peek (.ofInt o) height).unwritten ↔
      0 ≤ o ∧ Decimal.isWritable o = false ∨ o < -height ∧ Decimal.isWritable o = false := by
    simp [peek, Position.ofInt, Decimal.text?_eq_none_iff]
  rw [hoffset, ← or_and_right]
  exact and_congr_left' (by omega)

end Request

namespace StackOp

variable {h : Heap} {s : Stack} {p : Position}

theorem result_bytesAt {e : Entry} (he : (s.entryAt p).result = .ok e) :
    ((bytesAt p).run h s).attempt.result = .ok (.bytes (e.toBytes h)) :=
  Attempt.result_bind_of_ok he

theorem result_topBytes {e : Entry} (he : (s.top p).result = .ok e) :
    ((topBytes p).run h s).attempt.result = .ok (.bytes (e.toBytes h)) :=
  Attempt.result_bind_of_ok he

theorem result_top {e : Entry} (he : (s.top p).result = .ok e) :
    ((top p).run h s).attempt.result = .ok (.entry e) :=
  Attempt.result_bind_of_ok he

theorem result_top_isOk_iff {o : Int} :
    (∃ answer, ((top (.ofInt o)).run h s).attempt.result = .ok answer) ↔
      -s.height ≤ o ∧ o ≤ -1 := by
  constructor
  · intro hok
    obtain ⟨answer, hanswer⟩ := hok
    obtain ⟨e, he, _⟩ := Attempt.result_bind_eq_ok.mp hanswer
    obtain ⟨_, ho, hlow, hhigh, _⟩ := Stack.top_eq_ok_iff.mp he
    cases ho
    exact ⟨hlow, hhigh⟩
  · intro hrange
    obtain ⟨hlow, hhigh⟩ := hrange
    have hlt : (s.height + o).toNat < s.slots.length := by
      rw [Stack.length_slots]
      omega
    have he : (s.top (.ofInt o)).result = .ok s.slots[(s.height + o).toNat] :=
      Stack.top_eq_ok_iff.mpr ⟨o, rfl, hlow, hhigh, List.getElem?_eq_getElem hlt⟩
    exact ⟨_, result_top he⟩

end StackOp

end ScriptStack
