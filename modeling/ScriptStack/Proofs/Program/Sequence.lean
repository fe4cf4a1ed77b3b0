import Mathlib.Logic.Function.Basic
import ScriptStack.Proofs.Program.Commitment
import ScriptStack.Proofs.Program.Preservation
import ScriptStack.Proofs.Stack.Sequence

/-! The stacks of a program as plain sequences of entries, over whole runs: a sequence changes only
where its own stack is worked on, and only as the operation says. -/
namespace ScriptStack

namespace Store

theorem stack_addStack (σ : Store) (s : Stack) (id : StackId) :
    (σ.addStack s).stack id = if id = σ.next then s else σ.stack id := by
  by_cases hnext : id = σ.next
  · rw [if_pos hnext, hnext, stack_addStack_next]
  · rw [if_neg hnext]
    have hne : id.index ≠ σ.stackCells.length := fun hi => hnext (by cases id; simp_all [next])
    by_cases hlt : id.index < σ.stackCells.length
    · exact stack_addStack_of_lt hlt s
    · rw [stack, stack, addStack, List.getElem?_eq_none (by simp; omega),
        List.getElem?_eq_none (by omega)]

end Store

namespace Machine

variable {m : Machine}

def sequences (m : Machine) : StackId → List Entry := fun id => (m.store.stack id).slots

theorem sequences_start : start.sequences = fun _ => [] := by
  funext id
  obtain ⟨_ | i⟩ := id <;> rfl

theorem sequences_setStack {id : StackId} (hid : id.index < m.store.stackCells.length) (s : Stack) :
    (m.setStack id s).sequences = Function.update m.sequences id s.slots := by
  funext other
  by_cases hother : other = id
  · rw [hother, Function.update_self]
    exact congrArg Stack.slots (Store.stack_setStack_self hid s)
  · rw [Function.update_of_ne hother]
    exact congrArg Stack.slots (Store.stack_setStack_of_ne _ hother s)

theorem sequences_addStack (m : Machine) (name : String) (s : Stack) :
    (m.addStack name s).sequences = Function.update m.sequences m.store.next s.slots := by
  funext id
  have hstack : (m.addStack name s).store.stack id =
      if id = m.store.next then s else m.store.stack id := Store.stack_addStack _ _ _
  by_cases hid : id = m.store.next
  · rw [sequences, hstack, if_pos hid, hid, Function.update_self]
  · rw [sequences, hstack, if_neg hid, Function.update_of_ne hid]
    rfl

theorem sequences_of_cells {n : Machine} (h : n.store.stackCells = m.store.stackCells) :
    n.sequences = m.sequences := by
  funext id
  rw [sequences, sequences, Store.stack, Store.stack, h]

def KeepsStacks {α : Type} (m : Machine) (x : Attempt (Machine × α)) : Prop :=
  ∀ n a, x.result = .ok (n, a) → n.store.stackCells = m.store.stackCells

theorem KeepsStacks.settle {x : Attempt (Machine × Value)} (hx : m.KeepsStacks x) :
    (m.settle x).1.sequences = m.sequences :=
  sequences_of_cells (Preserves.settle (f := fun m => m.store.stackCells) hx)

def seeded? (m : Machine) (buffers : Term) : Option (List Entry) :=
  match (buffers.eval m).result with
  | .ok (k, v) =>
    match v.items k.heap with
    | .ok items =>
      if ∀ item ∈ items, (item.newBytes k.heap).isOk then some (k.heap.newEntries items.length)
      else none
    | .error _ => none
  | .error _ => none

/-- What an instruction does to the sequences. Only the sequence of the stack that is made or worked on
changes, and it does as the operation says. -/
def advance (m : Machine) (ρ : StackId → List Entry) : Instruction → StackId → List Entry
  | .create _ => Function.update ρ m.store.next []
  | .seed _ buffers => (m.seeded? buffers).elim ρ (Function.update ρ m.store.next)
  | .onStack name call =>
    match m.stackNames.get? name, (call.resolve m).result with
    | some id, .ok (k, op) => Function.update ρ id (op.onSequence k.heap (ρ id))
    | _, _ => ρ
  | .entryCommit t =>
    match (t.eval m).result with
    | .ok (k, .stack id) => Function.update ρ id (StackOp.commit.onSequence k.heap (ρ id))
    | _ => ρ
  | _ => ρ

/-- The sequences over a run, each step taken from the machine that the steps before it lead to. -/
def follow (m : Machine) (ρ : StackId → List Entry) : List Step → StackId → List Entry
  | [] => ρ
  | s :: rest => (m.step s).1.follow (m.advance ρ s.instruction) rest

theorem seeded?_eq_some_iff {buffers : Term} {slots : List Entry} :
    m.seeded? buffers = some slots ↔ ∃ k v items, (buffers.eval m).result = .ok (k, v) ∧
      v.items k.heap = .ok items ∧ (∀ item ∈ items, (item.newBytes k.heap).isOk) ∧
      slots = k.heap.newEntries items.length := by
  unfold seeded?
  cases hv : (buffers.eval m).result with
  | error fault => simp
  | ok y =>
    obtain ⟨k, v⟩ := y
    cases hitems : v.items k.heap with
    | error cause => simp [hitems]
    | ok items =>
      constructor
      · intro hslots
        simp only [hitems, Option.ite_none_right_eq_some] at hslots
        obtain ⟨hall, ⟨⟩⟩ := hslots
        exact ⟨k, v, items, rfl, hitems, hall, rfl⟩
      · rintro ⟨_, _, other, ⟨⟩, hother, hall, rfl⟩
        cases hitems.symm.trans hother
        simp only [hitems]
        exact if_pos hall

theorem result_seedStack_of_seeded? {buffers : Term} {slots : List Entry}
    (hslots : m.seeded? buffers = some slots) (name : String) :
    (m.seedStack name buffers).2.result = .ok .nothing := by
  obtain ⟨k, v, items, hv, hitems, hall, _⟩ := seeded?_eq_some_iff.mp hslots
  obtain ⟨s, hfrom⟩ := Stack.exists_seedFrom_of_isOk (h := k.heap) (s := .empty)
    (List.forall_mem_map.mpr hall)
  rw [result_seedStack hv hitems, Stack.seed_eq_ok.mpr hfrom]
  rfl

theorem sequences_seed (m : Machine) (name : String) (buffers : Term) :
    (m.seedStack name buffers).1.sequences = m.advance m.sequences (.seed name buffers) := by
  rw [advance]
  cases hx : (m.seedStack name buffers).2.result with
  | ok answer =>
    obtain ⟨k, w, items, s, hw, hitems, hs, _, hmachine⟩ := seedStack_eq_ok hx
    obtain ⟨hall, hslots⟩ := Stack.slots_of_seedFrom (Stack.seed_eq_ok.mp hs)
    have hcells : k.store.stackCells = m.store.stackCells :=
      (Term.eval_leads m k w buffers hw).widens.cells
    have hnext : k.store.next = m.store.next := by rw [Store.next, Store.next, hcells]
    have hseeded : m.seeded? buffers = some s.slots := by
      refine seeded?_eq_some_iff.mpr ⟨k, w, items, hw, hitems, List.forall_mem_map.mp hall, ?_⟩
      rw [hslots, List.length_map]
      rfl
    have hsame : (k.withHeap (Stack.seed k.heap (items.map (Value.newBytes k.heap))).1).sequences =
        m.sequences := sequences_of_cells hcells
    rw [hmachine, sequences_addStack, hseeded, hsame, ← hnext]
    rfl
  | error fault =>
    cases hseeded : m.seeded? buffers with
    | none => rw [seedStack_error hx, Option.elim_none]
    | some slots => cases (result_seedStack_of_seeded? hseeded name).symm.trans hx

theorem sequences_onStack (hm : m.Sound) (name : String) (call : StackCall) :
    (m.runOnStack name call).1.sequences = m.advance m.sequences (.onStack name call) := by
  rw [advance, runOnStack, stackId]
  cases hid : m.stackNames.get? name with
  | none => rfl
  | some id =>
    simp only [known, Option.elim, Attempt.result_done]
    cases hcall : (call.resolve m).result with
    | error fault => exact congrArg sequences (after_error hcall).1
    | ok y =>
      obtain ⟨k, op⟩ := y
      have hw := (call.resolve_leads hcall).widens
      have hlt : id.index < m.store.stackCells.length := hm.has _ (.named hid)
      have hslots : (op.run k.heap (k.store.stack id)).stack.slots =
          op.onSequence k.heap (m.sequences id) := by
        rw [StackOp.slots_run, hw.stack]
        rfl
      simp only
      rw [← hslots]
      cases hrun : (op.run k.heap (k.store.stack id)).attempt.result with
      | ok answer =>
        rw [(runStackOp_ok hcall rfl hrun).1, sequences_setStack (hw.cells.symm ▸ hlt)]
        have hsame : (k.withHeap (op.run k.heap (k.store.stack id)).heap).sequences =
            m.sequences := sequences_of_cells hw.cells
        rw [hsame]
      | error fault => rw [(runStackOp_error hw hcall rfl hrun).1, sequences_setStack hlt]

theorem sequences_entryCommit (hm : m.Sound) (t : Term) :
    (m.runInstruction (.entryCommit t)).1.sequences = m.advance m.sequences (.entryCommit t) := by
  cases ht : (t.eval m).result with
  | error fault =>
    rw [advance, ht]
    exact congrArg sequences (after_error ht).1
  | ok y =>
    obtain ⟨k, v⟩ := y
    cases v with
    | stack id =>
      obtain ⟨rfl, hreach⟩ := Term.eval_stack ht
      have hcommits : k.Commits id ⟨.entryCommit t, none⟩ := .inr ⟨t, k, rfl, ht⟩
      have hslots := StackOp.slots_run k.heap (k.store.stack id) .commit
      rw [advance, ht]
      cases hdata : ((k.store.stack id).commitment k.heap).result with
      | ok data =>
        rw [StackOp.run_commit_ok hdata] at hslots
        rw [(hcommits.run_ok hdata).1, sequences_setStack (hm.has _ hreach)]
        exact congrArg _ hslots
      | error fault =>
        rw [StackOp.run_commit_error hdata] at hslots
        rw [(hcommits.run_error hdata).1]
        exact ((Function.update_eq_self _ _).symm.trans (congrArg _ hslots))
    | _ =>
      -- What is no stack is committed, or refused, without a change of any.
      rw [advance, ht]
      refine sequences_of_cells ?_
      cases hx : (m.after (t.eval m) commitValue).2.result with
      | ok answer =>
        obtain ⟨l, w, hl, _, hmachine⟩ := after_eq_ok hx
        cases ht.symm.trans hl
        rw [runInstruction, hmachine]
        exact (Term.eval_leads m k _ t ht).widens.cells
      | error fault => rw [runInstruction, entryCommit_error hx]

theorem sequences_runInstruction (hm : m.Sound) (i : Instruction) :
    (m.runInstruction i).1.sequences = m.advance m.sequences i := by
  cases i with
  | create name => exact sequences_addStack m name .empty
  | seed name buffers => exact sequences_seed m name buffers
  | onStack name call => exact sequences_onStack hm name call
  | entryCommit t => exact sequences_entryCommit hm t
  | takeView stack view => exact KeepsStacks.settle (Preserves.after fun _ => .done rfl _)
  | _ => exact sequences_of_cells (preserves_runInstruction besideHeap_cells rfl)

/-- A step does to the sequences what its instruction says. A variable that takes the answer changes
none. -/
theorem sequences_step (hm : m.Sound) (s : Step) :
    (m.step s).1.sequences = m.advance m.sequences s.instruction := by
  rw [← sequences_runInstruction hm]
  obtain hk | ⟨_, _, _, _, hk⟩ := keep_cases (if s.instruction.hasResult then s.into else none)
    (m.runInstruction s.instruction)
  · rw [step, hk]
  · rw [step, hk]
    rfl

theorem sequences_run (hm : m.Sound) (steps : List Step) :
    (m.run steps).sequences = m.follow m.sequences steps := by
  induction steps generalizing m with
  | nil => rfl
  | cons s rest ih =>
    have hrest := ih (step_continues hm s).sound
    rw [run, follow, hrest, sequences_step hm]

theorem advance_onStack_of_ne {name : String} {id other : StackId} {call : StackCall}
    (hid : m.stackNames.get? name = some id) (hother : other ≠ id) (ρ : StackId → List Entry) :
    m.advance ρ (.onStack name call) other = ρ other := by
  rw [advance, hid]
  cases (call.resolve m).result with
  | ok y => exact Function.update_of_ne hother _ _
  | error fault => rfl

theorem result_map_value_eq_entry {x : Except Fault Answer} {e : Entry} :
    x.map Answer.value = .ok (.entry e) ↔ x = .ok (.entry e) := by
  cases x with
  | error fault => simp [Except.map]
  | ok answer => cases answer <;> simp [Except.map, Answer.value]

/-- Stacks refine plain sequences: over every program the slots are those of the sequences, taking an
entry off answers the last one, and a look at the top finds the entry that its offset counts to. -/
theorem stacks_refine_sequences (program : List Step) :
    let m := start.run program
    m.sequences = start.follow (fun _ => []) program ∧
    ∀ name id into, m.stackNames.get? name = some id →
      (∀ call other, other ≠ id →
        (m.step ⟨.onStack name call, into⟩).1.sequences other = m.sequences other) ∧
      (m.step ⟨.onStack name .pop, into⟩).2.result =
        .ok ((m.sequences id).getLast?.elim .nothing .entry) ∧
      ∀ (t : Term) (k : Machine) (v : Value) (o : Int) (e : Entry),
        (t.eval m).result = .ok (k, v) → v.index? = some o →
        ((m.step ⟨.onStack name (.top t), into⟩).2.result = .ok (.entry e) ↔
          -(m.sequences id).length ≤ o ∧ o ≤ -1 ∧
            (m.sequences id)[((m.sequences id).length + o).toNat]? = some e) := by
  intro m
  have hm : m.Sound := sound_run program
  have hrun : m.sequences = start.follow (fun _ => []) program := by
    rw [← sequences_start]
    exact sequences_run sound_start program
  refine ⟨hrun, fun name id into hid =>
    ⟨fun call other hother => ?_, ?_, fun t k v o e ht ho => ?_⟩⟩
  · rw [sequences_step hm]
    exact advance_onStack_of_ne hid hother _
  · rw [result_onStack hid rfl, StackOp.run_pop_answer, sequences]
    cases (m.store.stack id).slots.getLast? with
    | none => rfl
    | some e => rfl
  · have hcall : ((StackCall.top t).resolve m).result = .ok (k, .top (v.position k.store)) :=
      Attempt.result_bind_eq_ok.mpr ⟨(k, v), ht, rfl⟩
    have hposition : (v.position k.store).integer? = some o := ho
    rw [result_onStack hid hcall, result_map_value_eq_entry, StackOp.run_top_eq_ok_iff, hposition,
      ← Stack.length_slots]
    simp [sequences]

end Machine

end ScriptStack
