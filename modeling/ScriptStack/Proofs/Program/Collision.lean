import ScriptStack.Proofs.Program.Commitment
import ScriptStack.Proofs.Stack.Word

/-! Commitments collide exactly where the words of the slots do, and every string of whole words is
the commitment of a stack: the one that is seeded with its blocks. -/
namespace ScriptStack

namespace Term

theorem evalAll_bytes (m : Machine) (items : List Bytes) :
    evalAll m (items.map .bytes) = .done (m, items.map .bytes) := by
  induction items with
  | nil => rfl
  | cons data rest ih => simp [evalAll, eval, ofPlain, ih]

theorem eval_bytes_list (m : Machine) (items : List Bytes) :
    eval m (.list (items.map .bytes)) = .done (m, .list (items.map .bytes)) := by
  simp [eval, evalAll_bytes]

end Term

namespace Machine

variable {m : Machine} {name : String} {n : Nat} {data : Bytes}

def seedWith (name : String) (items : List Bytes) : Step :=
  ⟨.seed name (.list (items.map .bytes)), none⟩

theorem step_seedWith (hm : m.Sound) (name : String) (items : List Bytes) :
    ∃ k s, s.contents k = items.map .bytes ∧
      (m.step (seedWith name items)).1 = (m.withHeap k).addStack name s ∧
      (m.step (seedWith name items)).2.result = .ok .nothing := by
  obtain ⟨s, hseed, hcontents⟩ := Stack.exists_seed hm.closed items
  have hnew : (items.map Value.bytes).map (Value.newBytes m.heap) = items.map .ok := by
    rw [List.map_map]
    rfl
  have hgiven : m.seedItems (.list (items.map .bytes)) = .done (m, items.map .bytes) := by
    rw [seedItems, Term.eval_bytes_list]
    rfl
  have hnamed : m.seedNamed name (items.map .bytes) =
      ((m.withHeap (Stack.seed m.heap (items.map .ok)).1).addStack name s,
        ⟨(Stack.seed m.heap (items.map .ok)).2.log, .ok .nothing⟩) := by
    simp only [seedNamed, hnew, hseed]
  refine ⟨_, s, hcontents, ?_⟩
  rw [seedWith, step_of_no_result rfl, runInstruction, seedStack, hgiven]
  simp only [after, Attempt.result_done, hnamed, and_self]

/-- The stack that is seeded with the four-byte blocks of a string is committed to the string. -/
structure Reseeds (m : Machine) (name : String) (n : Nat) (data : Bytes) : Prop where
  seeded : (m.step (seedWith name (data.blocks 4 n))).2.result = .ok .nothing
  height : ∃ id, (m.step (seedWith name (data.blocks 4 n))).1.stackNames.get? name = some id ∧
    ((m.step (seedWith name (data.blocks 4 n))).1.store.stack id).height = n
  committed : ((m.step (seedWith name (data.blocks 4 n))).1.step
    ⟨.onStack name .commit, none⟩).2.result = .ok (.bytes data)

theorem Sound.reseeds (hm : m.Sound) (name : String) (hlength : data.length = 4 * n) :
    m.Reseeds name n data := by
  obtain ⟨k, s, hcontents, hmachine, hanswer⟩ := step_seedWith hm name (data.blocks 4 n)
  have hname : ((m.withHeap k).addStack name s).stackNames.get? name =
      some (m.withHeap k).store.next := Table.get?_set_self _ _ _
  have hstack : ((m.withHeap k).addStack name s).store.stack (m.withHeap k).store.next = s :=
    Store.stack_addStack_next _ _
  have hheight : s.height = n := by
    have hsize := congrArg List.length hcontents
    rwa [Stack.contents, List.length_map, Stack.length_slots, List.length_map,
      Bytes.length_blocks] at hsize
  have hcommits : ((m.withHeap k).addStack name s).Commits (m.withHeap k).store.next
      ⟨.onStack name .commit, none⟩ := .inl ⟨name, rfl, hname⟩
  refine ⟨hanswer, ?_, ?_⟩
  · rw [hmachine]
    exact ⟨_, hname, by rw [hstack, hheight]⟩
  · rw [hmachine]
    refine (hcommits.step_ok ?_).1
    rw [hstack]
    exact Stack.commitment_of_blocks hlength hcontents

theorem Commits.commitment {id : StackId} {s : Step} (hs : m.Commits id s)
    (hanswer : (m.step s).2.result = .ok (.bytes data)) :
    ((m.store.stack id).commitment m.heap).result = .ok data := by
  cases hdata : ((m.store.stack id).commitment m.heap).result with
  | ok other =>
    have hother := (hs.step_ok hdata).1
    rw [hanswer] at hother
    cases hother
    rfl
  | error fault =>
    have hfault := (hs.step_error hdata).2
    rw [hanswer] at hfault
    cases hfault

/-- Two commitments are equal exactly when the stacks have the same height and the same word in each
slot. Every string of whole words is a commitment, and a commitment can be seeded from again. -/
theorem commitments_collide_by_words :
    (∀ (h k : Heap) (s t : Stack) (a b : Bytes),
      (StackOp.commit.run h s).attempt.result = .ok (.bytes a) →
      (StackOp.commit.run k t).attempt.result = .ok (.bytes b) →
      (a = b ↔ Stack.SameWords h s k t)) ∧
    (∀ (program : List Step) (name : String) (n : Nat) (data : Bytes), data.length = 4 * n →
      (start.run program).Reseeds name n data) ∧
    ∀ (program : List Step) (id : StackId) (s : Step) (data : Bytes),
      (start.run program).Commits id s →
      ((start.run program).step s).2.result = .ok (.bytes data) →
      ∀ later name, (start.run later).Reseeds name ((start.run program).store.stack id).height data := by
  refine ⟨fun h k s t a b ha hb => ?_, fun program name n data hlength => ?_, ?_⟩
  · exact Stack.commitment_eq_iff (StackOp.run_commit_eq_ok.mp ha) (StackOp.run_commit_eq_ok.mp hb)
  · exact (sound_run program).reseeds name hlength
  · intro program id s data hs hanswer later name
    exact (sound_run later).reseeds name (Stack.length_commitment (hs.commitment hanswer))

end Machine

end ScriptStack
