import Mathlib.Data.List.Basic
import ScriptStack.Proofs.Stack.Change
import ScriptStack.Proofs.Stack.Word

/-! A stack as a plain sequence of entries, the bottom one first: what every operation does to it, and
which entry a look at the stack finds. -/
namespace ScriptStack

def Quantity.integer? : Quantity → Option Int
  | integer n => some n
  | flag b => some (flagValue b)
  | _ => none

theorem Quantity.above_of_integer? {q : Quantity} {n : Int} (hq : q.integer? = some n) (k : Int) :
    q.above k = decide (k < n) := by
  rw [← above_integer]
  cases q <;> cases hq <;> rfl

theorem reverse_eraseIdx {α : Type} {l : List α} {i : Nat} (h : i < l.length) :
    (l.eraseIdx (l.length - 1 - i)).reverse = l.reverse.eraseIdx i := by
  have hat : l.length - 1 - i = l.length - (i + 1) := by omega
  have hnext : l.length - (i + 1) + 1 = l.length - i := by omega
  rw [List.eraseIdx_eq_take_drop_succ, List.eraseIdx_eq_take_drop_succ, List.reverse_append,
    List.take_reverse, List.drop_reverse, hat, hnext]

def Heap.newEntries (h : Heap) (n : Nat) : List Entry := (List.range' h.operands.length n).map .mk

namespace Stack

variable {s t : Stack} {q : Quantity} {n : Int}

theorem needAtLeast_of_deep (hq : q.integer? = some n) (hn : s.height < n) :
    s.needAtLeast q = .raise (.underflow .depth q s.height) := by
  rw [needAtLeast, Quantity.above_of_integer? hq, if_pos (decide_eq_true hn)]

theorem needAtLeast_of_le (hq : q.integer? = some n) (hn : n ≤ s.height) :
    s.needAtLeast q = .done () := by
  rw [needAtLeast, Quantity.above_of_integer? hq, if_neg (by simpa using hn)]

theorem removal_of_deep (hq : q.integer? = some n) (hn : s.height < n) :
    s.removal q = .raise (.underflow .depth q s.height) := by
  rw [removal, needAtLeast_of_deep hq hn, Attempt.raise, Attempt.fail_bind, Attempt.raise]

theorem removal_of_le (hq : q.integer? = some n) (hn : n ≤ s.height) :
    s.removal q = .done n.toNat := by
  rw [removal, needAtLeast_of_le hq hn, Attempt.done_bind, Quantity.above_of_integer? hq]
  by_cases hpos : 0 < n
  · have hcount : removalCount q = .ok n.toNat := by
      cases q <;> cases hq <;> rfl
    rw [if_pos (decide_eq_true hpos), hcount]
    rfl
  · have hzero : n.toNat = 0 := by omega
    rw [if_neg (by simpa using hpos), hzero]

theorem removal_eq_zero (hq : q.integer? = none) {k : Nat} (hk : (s.removal q).result = .ok k) :
    k = 0 := by
  obtain ⟨_, _, hk⟩ := Attempt.result_bind_eq_ok.mp hk
  split at hk
  · cases q <;> cases hq <;> cases hk
  · cases hk
    rfl

/-- A place counted from the top is the one as far from the bottom as the height leaves. -/
theorem getElem?_slots_of_offset {o : Int} (hlow : -s.height ≤ o) (hneg : o < 0) :
    s.slots[(s.height + o).toNat]? = s.entries[o.natAbs - 1]? := by
  rw [height] at hlow ⊢
  have hlt : (s.entries.length + o).toNat < s.entries.length := by omega
  have hplace : s.entries.length - 1 - (s.entries.length + o).toNat = o.natAbs - 1 := by omega
  rw [slots, List.getElem?_reverse hlt, hplace]

theorem top_eq_ok_iff {offset : Position} {e : Entry} : (s.top offset).result = .ok e ↔
    ∃ o, offset.integer? = some o ∧ -s.height ≤ o ∧ o ≤ -1 ∧
      s.slots[(s.height + o).toNat]? = some e := by
  unfold Stack.top
  cases ho : offset.integer? with
  | none => simp
  | some o =>
    by_cases hneg : 0 ≤ o
    · have hout : ¬ o ≤ -1 := by omega
      simp [hneg, hout]
    · simp only [if_neg hneg]
      cases he : s.entries[o.natAbs - 1]? with
      | none =>
        have hlow : ¬ -s.height ≤ o := by
          have := List.getElem?_eq_none_iff.mp he
          rw [height]
          omega
        simp [hlow]
      | some f =>
        have hlow : -s.height ≤ o := by
          obtain ⟨hlt, _⟩ := List.getElem?_eq_some_iff.mp he
          rw [height]
          omega
        have hneg' : o ≤ -1 := by omega
        simp [hlow, hneg', getElem?_slots_of_offset hlow (by omega), he]

theorem top_of_slot {i : Nat} {e : Entry} (hi : s.slots[i]? = some e) :
    (s.top (.ofInt (i - s.height))).result = .ok e := by
  obtain ⟨hlt, _⟩ := List.getElem?_eq_some_iff.mp hi
  rw [length_slots] at hlt
  have hplace : (s.height + ((i : Int) - s.height)).toNat = i := by omega
  refine top_eq_ok_iff.mpr ⟨_, rfl, by omega, by omega, ?_⟩
  rw [hplace, hi]

theorem slots_drop_one (s : Stack) : (s.drop 1).slots = s.slots.dropLast := by
  rw [slots_drop, List.dropLast_eq_take, length_slots]

theorem slots_of_seedFrom {h : Heap} {items : List (Except Misuse Bytes)}
    (hseed : (seedFrom h s items).2 = .ok t) :
    (∀ item ∈ items, item.isOk) ∧ t.slots = s.slots ++ h.newEntries items.length := by
  induction items generalizing h s with
  | nil =>
    cases hseed
    simp [Heap.newEntries]
  | cons item rest ih =>
    cases item with
    | error cause => cases hseed
    | ok data =>
      obtain ⟨hall, hslots⟩ := ih hseed
      refine ⟨List.forall_mem_cons.mpr ⟨rfl, hall⟩, ?_⟩
      rw [hslots, slots_push, List.append_assoc]
      simp [Heap.newEntries, List.range'_succ, Heap.nextEntry, Heap.addEntry, Heap.alloc]

end Stack

namespace StackOp

/-- What an operation does to a plain sequence of entries, given the buffers and entries there are. An
entry that is made has the next identity. -/
def onSequence (h : Heap) (slots : List Entry) : StackOp → List Entry
  | push (.ok e) => slots ++ [e]
  | pushNumber (.ok _) | pushBytes (.ok _) => slots ++ [h.nextEntry]
  | pop | popBytes | popNumber _ => slots.dropLast
  | popN (.ok q) =>
    match q.integer? with
    | some n => if 0 < n ∧ n ≤ slots.length then slots.take (slots.length - n.toNat) else slots
    | none => slots
  | removeAt index =>
    match index.integer? with
    | some i => if 0 ≤ i ∧ i < slots.length then slots.eraseIdx i.toNat else slots
    | none => slots
  | commit => if ∀ e ∈ slots, (e.content h).Fits then [] else slots
  | _ => slots

variable {h : Heap} {s : Stack}

theorem slots_popN (h : Heap) (s : Stack) (q : Quantity) :
    ((popN (.ok q)).run h s).stack.slots = (popN (.ok q)).onSequence h s.slots := by
  have hrun : (popN (.ok q)).run h s =
      .after h s (s.removal q) fun k => ⟨h, s.drop k, .done .nothing⟩ := rfl
  rw [hrun, onSequence, Stack.length_slots]
  cases hq : q.integer? with
  | some n =>
    by_cases hdeep : (s.height : Int) < n
    · rw [Stack.removal_of_deep hq hdeep, Outcome.after_error (Attempt.result_raise _)]
      simp only [if_neg (show ¬ (0 < n ∧ n ≤ (s.height : Int)) by omega)]
    · rw [Stack.removal_of_le hq (by omega), Outcome.after_done, Stack.slots_drop]
      by_cases hpos : 0 < n
      · simp only [if_pos (show 0 < n ∧ n ≤ (s.height : Int) by omega)]
      · have hzero : n.toNat = 0 := by omega
        simp only [if_neg (show ¬ (0 < n ∧ n ≤ (s.height : Int)) by omega), hzero, Nat.sub_zero]
        rw [← Stack.length_slots, List.take_length]
  | none =>
    cases hk : (s.removal q).result with
    | error fault => rw [Outcome.after_error hk]
    | ok k =>
      rw [Outcome.after_ok hk, Stack.removal_eq_zero hq hk]
      rfl

theorem slots_removeAt (h : Heap) (s : Stack) (index : Position) :
    ((removeAt index).run h s).stack.slots = (removeAt index).onSequence h s.slots := by
  have hrun : (removeAt index).run h s =
      .after h s (s.depthOf index) fun d => ⟨h, s.eraseAt d, .done .nothing⟩ := rfl
  rw [hrun, onSequence, Stack.length_slots, Stack.depthOf, Stack.depth?]
  cases hi : index.integer? with
  | none => exact congrArg (fun o => o.stack.slots) (Outcome.after_error (Stack.result_refuse _))
  | some i =>
    simp only [Option.bind_some]
    by_cases hin : 0 ≤ i ∧ i < (s.height : Int)
    · rw [if_pos hin, if_pos hin]
      have hlt : i.toNat < s.entries.length := by
        have := hin.2
        rw [Stack.height] at this
        omega
      exact reverse_eraseIdx hlt
    · rw [if_neg hin, if_neg hin]
      exact congrArg (fun o => o.stack.slots) (Outcome.after_error (Stack.result_refuse _))

/-- An operation does to the slots what it does to a plain sequence. -/
theorem slots_run (h : Heap) (s : Stack) (op : StackOp) :
    (op.run h s).stack.slots = op.onSequence h s.slots := by
  cases op with
  | push given | pushNumber given | pushBytes given =>
    cases given with
    | ok _ => exact Stack.slots_push _ _
    | error _ => rfl
  | pop =>
    obtain ⟨l⟩ := s
    cases l with
    | nil => rfl
    | cons e rest => exact Stack.slots_drop_one _
  | popBytes | popNumber minimal =>
    rw [run, consume_stack]
    exact Stack.slots_drop_one s
  | popN given =>
    cases given with
    | ok q => exact slots_popN h s q
    | error _ => rfl
  | removeAt index => exact slots_removeAt h s index
  | commit =>
    rw [onSequence]
    by_cases hfit : ∀ e ∈ s.slots, (e.content h).Fits
    · rw [if_pos hfit, run_commit_ok (Stack.commitEntries_of_fits hfit)]
      rfl
    · rw [if_neg hfit]
      cases hdata : (s.commitment h).result with
      | ok data => exact absurd (Stack.commitment_eq_ok_iff.mp hdata).1 hfit
      | error fault => rw [run_commit_error hdata]
  | height | isEmpty | hasEntries | top | topBytes | topNumber | last | bytesAt | needAtLeast
  | display | json | table => rfl

theorem run_pop_answer (h : Heap) (s : Stack) :
    (pop.run h s).attempt = .done (s.slots.getLast?.elim .nothing .entry) := by
  obtain ⟨l⟩ := s
  cases l with
  | nil => rfl
  | cons e rest => simp [run, popTop, Stack.slots]

theorem run_top_eq_ok_iff {offset : Position} {e : Entry} :
    ((top offset).run h s).attempt.result = .ok (.entry e) ↔
      ∃ o, offset.integer? = some o ∧ -s.height ≤ o ∧ o ≤ -1 ∧
        s.slots[(s.height + o).toNat]? = some e := by
  rw [← Stack.top_eq_ok_iff]
  constructor
  · intro hrun
    obtain ⟨f, hf, he⟩ := entry_of_read hrun
    cases he
    exact hf
  · intro htop
    exact Attempt.result_bind_eq_ok.mpr ⟨e, htop, rfl⟩

end StackOp

end ScriptStack
