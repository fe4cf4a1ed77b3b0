import ScriptStack.Proofs.Bytes.Blocks
import ScriptStack.Proofs.Stack.Commitment
import ScriptStack.Proofs.Stack.Contents

/-! The 32-bit words of slots. Two commitments are the same when the words are, slot by slot, and any
words can be committed. -/
namespace ScriptStack

namespace Content

/-- The word of a slot as an unsigned number: a number wraps, bytes have the lowest one first. -/
def unsigned : Content → Int
  | number v => v % 2 ^ 32
  | bytes data => data.value

theorem value_word (c : Content) : (c.word.value : Int) = c.unsigned := by
  cases c with
  | number v => exact (hasForm_word (number v)).2
  | bytes data =>
    rw [word, Bytes.padTo, Bytes.value_append, Bytes.value_replicate_zero, Nat.mul_zero,
      Nat.add_zero]
    rfl

theorem word_eq_iff {c d : Content} (hc : c.Fits) (hd : d.Fits) :
    c.word = d.word ↔ c.unsigned = d.unsigned := by
  have hlength : c.word.length = d.word.length := (length_word hc).trans (length_word hd).symm
  rw [← Bytes.value_inj hlength, ← value_word, ← value_word]
  exact Int.ofNat_inj.symm

end Content

section Pieces

variable {α β : Type} {f : α → Bytes} {g : β → Bytes} {w : Nat} {l : List α} {m : List β}

theorem flatMap_eq_flatMap_iff (hw : 0 < w) (hf : ∀ a ∈ l, (f a).length = w)
    (hg : ∀ b ∈ m, (g b).length = w) :
    l.flatMap f = m.flatMap g ↔
      l.length = m.length ∧ ∀ (i : Nat) a b, l[i]? = some a → m[i]? = some b → f a = g b := by
  constructor
  · intro heq
    have hlength := congrArg List.length heq
    rw [length_flatMap_of_length hf, length_flatMap_of_length hg] at hlength
    refine ⟨Nat.eq_of_mul_eq_mul_left hw hlength, fun i a b ha hb => ?_⟩
    rw [← take_drop_flatMap hf ha, ← take_drop_flatMap hg hb, heq]
  · rintro ⟨hlength, hpieces⟩
    induction l generalizing m with
    | nil => simp [List.eq_nil_of_length_eq_zero hlength.symm]
    | cons a rest ih =>
      cases m with
      | nil => cases hlength
      | cons b other =>
        have hhead : f a = g b := hpieces 0 a b rfl rfl
        have hrest := ih (fun c hc => hf c (List.mem_cons_of_mem a hc))
          (fun c hc => hg c (List.mem_cons_of_mem b hc)) (Nat.succ.inj hlength)
          fun i c d hc hd => hpieces (i + 1) c d (by simpa using hc) (by simpa using hd)
        rw [List.flatMap_cons, List.flatMap_cons, hhead, hrest]

end Pieces

namespace Stack

variable {h k : Heap} {s t : Stack} {a b data : Bytes}

theorem commitment_eq_ok_iff : (s.commitment h).result = .ok data ↔
    (∀ e ∈ s.slots, (e.content h).Fits) ∧ data = s.slots.flatMap fun e => (e.content h).word := by
  constructor
  · intro hdata
    obtain hfit | ⟨below, e, above, hslots, hbelow, he⟩ := fits_or_first h s.slots
    · refine ⟨hfit, ?_⟩
      rw [commitment, commitEntries_of_fits hfit] at hdata
      exact (Except.ok.inj hdata).symm
    · obtain ⟨fault, hfault, _⟩ := Content.commit_of_not_fits he
      rw [commitment, hslots, commitEntries_of_not_fits hbelow hfault] at hdata
      cases hdata
  · rintro ⟨hfit, rfl⟩
    exact commitEntries_of_fits hfit

theorem length_commitment (hdata : (s.commitment h).result = .ok data) :
    data.length = 4 * s.height := by
  obtain ⟨hfit, rfl⟩ := commitment_eq_ok_iff.mp hdata
  rw [length_flatMap_of_length fun e he => Content.length_word (hfit e he), length_slots]

structure SameWords (h : Heap) (s : Stack) (k : Heap) (t : Stack) : Prop where
  height : s.height = t.height
  words : ∀ (i : Nat) (e f : Entry), s.slots[i]? = some e → t.slots[i]? = some f →
    (e.content h).unsigned = (f.content k).unsigned

theorem commitment_eq_iff (ha : (s.commitment h).result = .ok a)
    (hb : (t.commitment k).result = .ok b) : a = b ↔ SameWords h s k t := by
  obtain ⟨hs, rfl⟩ := commitment_eq_ok_iff.mp ha
  obtain ⟨ht, rfl⟩ := commitment_eq_ok_iff.mp hb
  rw [flatMap_eq_flatMap_iff (by decide) (fun e he => Content.length_word (hs e he))
    fun e he => Content.length_word (ht e he), length_slots, length_slots]
  have hword : ∀ (i : Nat) (e f : Entry), s.slots[i]? = some e → t.slots[i]? = some f →
      ((e.content h).word = (f.content k).word ↔
        (e.content h).unsigned = (f.content k).unsigned) := by
    intro i e f he hf
    exact Content.word_eq_iff (hs e (List.mem_of_getElem? he)) (ht f (List.mem_of_getElem? hf))
  constructor
  · rintro ⟨hheight, hwords⟩
    exact ⟨hheight, fun i e f he hf => (hword i e f he hf).mp (hwords i e f he hf)⟩
  · rintro ⟨hheight, hwords⟩
    exact ⟨hheight, fun i e f he hf => (hword i e f he hf).mpr (hwords i e f he hf)⟩

theorem commitment_of_blocks {n : Nat} (hlength : data.length = 4 * n)
    (hs : s.contents h = (data.blocks 4 n).map .bytes) : (s.commitment h).result = .ok data := by
  have hblock : ∀ e ∈ s.slots, ∃ block, e.content h = .bytes block ∧ block.length = 4 := by
    intro e he
    have hmem : e.content h ∈ (data.blocks 4 n).map Content.bytes := hs ▸ List.mem_map_of_mem he
    obtain ⟨block, hb, heq⟩ := List.mem_map.mp hmem
    exact ⟨block, heq.symm, Bytes.length_of_mem_blocks hlength hb⟩
  refine commitment_eq_ok_iff.mpr ⟨fun e he => ?_, ?_⟩
  · obtain ⟨block, heq, hb⟩ := hblock e he
    rw [heq]
    exact Nat.le_of_eq hb
  · have hwords : (data.blocks 4 n).map (fun block => (Content.bytes block).word) =
        data.blocks 4 n := by
      refine (List.map_congr_left fun block hb => ?_).trans (List.map_id _)
      exact Bytes.padTo_of_length (Bytes.length_of_mem_blocks hlength hb)
    calc data = (data.blocks 4 n).flatten := (Bytes.flatten_blocks hlength).symm
      _ = ((data.blocks 4 n).map fun block => (Content.bytes block).word).flatten := by rw [hwords]
      _ = (s.contents h).flatMap Content.word := by rw [hs, List.flatMap_map, List.flatMap_def]
      _ = s.slots.flatMap fun e => (e.content h).word := by rw [contents, List.flatMap_map]

end Stack

theorem StackOp.run_commit_eq_ok {h : Heap} {s : Stack} {data : Bytes} :
    (commit.run h s).attempt.result = .ok (.bytes data) ↔ (s.commitment h).result = .ok data := by
  cases hdata : (s.commitment h).result with
  | ok other => simp [run_commit_ok hdata]
  | error fault => simp [run_commit_error hdata]

end ScriptStack
