import ScriptStack.Program.Run
import ScriptStack.Proofs.Program.Evaluation
import ScriptStack.Proofs.Program.Update
import ScriptStack.Proofs.Stack.Failure
import ScriptStack.Proofs.Stack.Seeding

/-! What has been done when an instruction succeeds. -/
namespace ScriptStack

namespace Machine

variable {k m n : Machine} {b : BufferId}

/-! What terms that have to be of some sort evaluate to. -/

theorem withEntry_eq_ok {t : Term} {f : Machine → Entry → Attempt (Machine × Value)}
    {y : Machine × Value} : (m.withEntry t f).result = .ok y ↔
      ∃ k e, (t.eval m).result = .ok (k, .entry e) ∧ (f k e).result = .ok y := by
  constructor
  · intro h
    obtain ⟨⟨k, v⟩, hv, hk⟩ := Attempt.result_bind_eq_ok.mp h
    obtain ⟨e, he, hy⟩ := Attempt.result_bind_eq_ok.mp hk
    have hasEntry := Attempt.result_ofGiven_eq_ok.mp he
    cases v <;> cases hasEntry
    exact ⟨k, e, hv, hy⟩
  · rintro ⟨k, e, hv, hy⟩
    exact Attempt.result_bind_eq_ok.mpr ⟨_, hv, Attempt.result_bind_eq_ok.mpr ⟨e, rfl, hy⟩⟩

theorem withBuffer_eq_ok {α : Type} {t : Term} {f : Machine → BufferId → Attempt (Machine × α)}
    {y : Machine × α} : (m.withBuffer t f).result = .ok y ↔
      ∃ k e b, (t.eval m).result = .ok (k, .entry e) ∧ k.heap.operand e = .buffer b ∧
        (f k b).result = .ok y := by
  constructor
  · intro h
    obtain ⟨⟨k, v⟩, hv, hk⟩ := Attempt.result_bind_eq_ok.mp h
    obtain ⟨b, hb, hy⟩ := Attempt.result_bind_eq_ok.mp hk
    obtain ⟨e, rfl, he⟩ := Value.asBuffer_eq_ok.mp (Attempt.result_ofGiven_eq_ok.mp hb)
    exact ⟨k, e, b, hv, he, hy⟩
  · rintro ⟨k, e, b, hv, he, hy⟩
    refine Attempt.result_bind_eq_ok.mpr ⟨_, hv, Attempt.result_bind_eq_ok.mpr ⟨b, ?_, hy⟩⟩
    exact Attempt.result_ofGiven_eq_ok.mpr (Value.asBuffer_eq_ok.mpr ⟨e, rfl, he⟩)

/-! What is given to an action is evaluated first. -/

section After

variable {α : Type} {given : Attempt (Machine × α)} {f : Machine → α → Machine × Attempt Value}
  {a : α} {v : Value} {fault : Fault}

theorem attempt_after (m : Machine) (given : Attempt (Machine × α))
    (f : Machine → α → Machine × Attempt Value) :
    (m.after given f).2 = given.bind fun y => (f y.1 y.2).2 := by
  rw [after, Attempt.bind]
  cases given.result with
  | error fault => rfl
  | ok y => cases hx : (f y.1 y.2).2.result <;> simp only [hx]

theorem after_ok (hg : given.result = .ok (k, a)) (hx : (f k a).2.result = .ok v) :
    (m.after given f).1 = (f k a).1 ∧ (m.after given f).2.result = .ok v := by
  simp only [after, hg, hx, and_self]

theorem after_fault (hg : given.result = .ok (k, a)) (hx : (f k a).2.result = .error fault) :
    (m.after given f).1 = (f k a).1.dropNewer m ∧
      (m.after given f).2.result = .error fault := by
  simp only [after, hg, hx, and_self]

theorem after_error (hg : given.result = .error fault) :
    (m.after given f).1 = m ∧ (m.after given f).2.result = .error fault := by
  simp only [after, hg, and_self]

theorem after_eq_ok (h : (m.after given f).2.result = .ok v) : ∃ k a,
    given.result = .ok (k, a) ∧ (f k a).2.result = .ok v ∧ (m.after given f).1 = (f k a).1 := by
  rw [attempt_after] at h
  obtain ⟨⟨k, a⟩, hg, hx⟩ := Attempt.result_bind_eq_ok.mp h
  exact ⟨k, a, hg, hx, (after_ok hg hx).1⟩

theorem after_eq_error (h : (m.after given f).2.result = .error fault) :
    (m.after given f).1 = m ∨ ∃ k a, given.result = .ok (k, a) ∧
      (f k a).2.result = .error fault ∧ (m.after given f).1 = (f k a).1.dropNewer m := by
  rw [attempt_after] at h
  obtain hg | ⟨⟨k, a⟩, hg, hx⟩ := Attempt.result_bind_eq_error.mp h
  · exact .inl (after_error hg).1
  · exact .inr ⟨k, a, hg, hx, (after_fault hg hx).1⟩

end After

theorem applyEdit_eq_ok {edit : Edit} {v : Value} (h : (m.applyEdit b edit).2.result = .ok v) :
    ∃ effect, edit.apply (m.heap.read b) = .ok effect ∧
      (m.applyEdit b edit).1 = m.withHeap (m.heap.write b effect.data) ∧ v = editAnswer effect := by
  unfold applyEdit at h ⊢
  cases hedit : edit.apply (m.heap.read b) with
  | ok effect =>
    rw [hedit] at h
    cases h
    exact ⟨effect, rfl, rfl, rfl⟩
  | error cause =>
    rw [hedit] at h
    cases h

theorem applyEdit_error {edit : Edit} {fault : Fault}
    (h : (m.applyEdit b edit).2.result = .error fault) : (m.applyEdit b edit).1 = m := by
  unfold applyEdit at h ⊢
  cases hedit : edit.apply (m.heap.read b) with
  | ok effect =>
    rw [hedit] at h
    cases h
  | error cause => rfl

theorem editGiven_eq_ok {target : Term} {call : EditCall} {l : Machine} {edit : Edit} :
    (m.editGiven target call).result = .ok (l, b, edit) ↔ ∃ k e,
      (target.eval m).result = .ok (k, .entry e) ∧ k.heap.operand e = .buffer b ∧
      (call.resolve k).result = .ok (l, edit) := by
  constructor
  · intro h
    obtain ⟨k, e, c, he, hb, hk⟩ := withBuffer_eq_ok.mp h
    obtain ⟨⟨l', edit'⟩, hl, hedit⟩ := Attempt.result_bind_eq_ok.mp hk
    cases hedit
    exact ⟨k, e, he, hb, hl⟩
  · rintro ⟨k, e, he, hb, hl⟩
    exact withBuffer_eq_ok.mpr ⟨k, e, b, he, hb, Attempt.result_bind_eq_ok.mpr ⟨_, hl, rfl⟩⟩

theorem editBuffer_eq_ok {target : Term} {call : EditCall} {v : Value} :
    (m.editBuffer target call).1 = n ∧ (m.editBuffer target call).2.result = .ok v ↔
      ∃ k e b l edit effect,
      (target.eval m).result = .ok (k, .entry e) ∧ k.heap.operand e = .buffer b ∧
      (call.resolve k).result = .ok (l, edit) ∧ edit.apply (l.heap.read b) = .ok effect ∧
      n = l.withHeap (l.heap.write b effect.data) ∧ v = editAnswer effect := by
  constructor
  · rintro ⟨rfl, hv⟩
    obtain ⟨l, ⟨b, edit⟩, hgiven, happly, hmachine⟩ := after_eq_ok hv
    obtain ⟨k, e, he, hb, hl⟩ := editGiven_eq_ok.mp hgiven
    obtain ⟨effect, heffect, hwritten, hanswer⟩ := applyEdit_eq_ok happly
    exact ⟨k, e, b, l, edit, effect, he, hb, hl, heffect, hmachine.trans hwritten, hanswer⟩
  · rintro ⟨k, e, b, l, edit, effect, he, hb, hl, heffect, rfl, rfl⟩
    have hgiven := editGiven_eq_ok.mpr ⟨k, e, he, hb, hl⟩
    have happly : l.applyEdit b edit =
        (l.withHeap (l.heap.write b effect.data), .done (editAnswer effect)) := by
      rw [applyEdit, heffect]
    have hdone : (m.editBuffer target call).1 = (l.applyEdit b edit).1 ∧
        (m.editBuffer target call).2.result = .ok (editAnswer effect) :=
      after_ok hgiven (congrArg (fun y => y.2.result) happly)
    exact ⟨hdone.1.trans (congrArg Prod.fst happly), hdone.2⟩

theorem editBuffer_error {target : Term} {call : EditCall} {fault : Fault}
    (h : (m.editBuffer target call).2.result = .error fault) : (m.editBuffer target call).1 = m := by
  obtain hm | ⟨l, ⟨b, edit⟩, hgiven, happly, hmachine⟩ := after_eq_error h
  · exact hm
  · obtain ⟨k, e, he, _, hl⟩ := editGiven_eq_ok.mp hgiven
    have hw := (Term.eval_leads m k _ target he).widens.trans (call.resolve_leads hl).widens
    exact hmachine.trans ((congrArg (dropNewer · m) (applyEdit_error happly)).trans hw.dropNewer)

theorem attempt_seedNamed (m : Machine) (name : String) (items : List Value) :
    (m.seedNamed name items).2 =
      (Stack.seed m.heap (items.map (Value.newBytes m.heap))).2.map fun _ => .nothing := by
  simp only [seedNamed, Attempt.map]
  cases (Stack.seed m.heap (items.map (Value.newBytes m.heap))).2.result <;> rfl

theorem seedItems_eq_ok {buffers : Term} {items : List Value} :
    (m.seedItems buffers).result = .ok (k, items) ↔
      ∃ w, (buffers.eval m).result = .ok (k, w) ∧ w.items k.heap = .ok items := by
  constructor
  · intro h
    obtain ⟨⟨l, w⟩, hw, hl⟩ := Attempt.result_bind_eq_ok.mp h
    obtain ⟨_, hitems, hk⟩ := Attempt.result_bind_eq_ok.mp hl
    cases hk
    exact ⟨w, hw, Attempt.result_ofGiven_eq_ok.mp hitems⟩
  · rintro ⟨w, hw, hitems⟩
    refine Attempt.result_bind_eq_ok.mpr ⟨(k, w), hw, ?_⟩
    exact Attempt.result_bind_eq_ok.mpr ⟨items, Attempt.result_ofGiven_eq_ok.mpr hitems, rfl⟩

theorem result_seedStack {name : String} {buffers : Term} {w : Value} {items : List Value}
    (hw : (buffers.eval m).result = .ok (k, w)) (hitems : w.items k.heap = .ok items) :
    (m.seedStack name buffers).2.result =
      (Stack.seed k.heap (items.map (Value.newBytes k.heap))).2.result.map fun _ => .nothing := by
  rw [seedStack, attempt_after, Attempt.result_bind_of_ok (seedItems_eq_ok.mpr ⟨w, hw, hitems⟩),
    attempt_seedNamed, Attempt.result_map]

theorem seedStack_eq_ok {name : String} {buffers : Term} {v : Value}
    (h : (m.seedStack name buffers).2.result = .ok v) : ∃ k w items s,
      (buffers.eval m).result = .ok (k, w) ∧ w.items k.heap = .ok items ∧
      (Stack.seed k.heap (items.map (Value.newBytes k.heap))).2.result = .ok s ∧ v = .nothing ∧
      (m.seedStack name buffers).1 = (k.withHeap
        (Stack.seed k.heap (items.map (Value.newBytes k.heap))).1).addStack name s := by
  obtain ⟨k, items, hgiven, hseed, hmachine⟩ := after_eq_ok h
  obtain ⟨w, hw, hitems⟩ := seedItems_eq_ok.mp hgiven
  rw [seedStack, hmachine]
  simp only [seedNamed] at hseed ⊢
  cases hs : (Stack.seed k.heap (items.map (Value.newBytes k.heap))).2.result with
  | ok s =>
    rw [hs] at hseed
    cases hseed
    exact ⟨k, w, items, s, hw, hitems, hs, rfl, rfl⟩
  | error fault =>
    rw [hs] at hseed
    cases hseed

theorem seedStack_error {name : String} {buffers : Term} {fault : Fault}
    (h : (m.seedStack name buffers).2.result = .error fault) : (m.seedStack name buffers).1 = m := by
  obtain hm | ⟨k, items, hgiven, hseed, hmachine⟩ := after_eq_error h
  · exact hm
  · obtain ⟨w, hw, _⟩ := seedItems_eq_ok.mp hgiven
    have hgrows := Stack.grows_seedFrom k.heap .empty (items.map (Value.newBytes k.heap))
    have hmade := (Term.eval_leads m k w buffers hw).widens.trans (widens_withHeap hgrows)
    refine hmachine.trans ?_
    simp only [seedNamed] at hseed ⊢
    cases hs : (Stack.seed k.heap (items.map (Value.newBytes k.heap))).2.result with
    | ok s =>
      rw [hs] at hseed
      cases hseed
    | error cause => exact hmade.dropNewer

theorem keep_cases (into : Option String) (y : Machine × Attempt Value) :
    keep into y = y ∨ ∃ name v, into = some name ∧ y.2.result = .ok v ∧
      keep into y = (y.1.setRegister name v, y.2) := by
  obtain ⟨n, x⟩ := y
  cases into with
  | none => exact .inl rfl
  | some name =>
    cases hx : x.result with
    | ok v => exact .inr ⟨name, v, rfl, rfl, by simp only [keep, hx]⟩
    | error fault => exact .inl (by simp only [keep, hx])

theorem reaches_buffer : m.Reaches (.buffer b) ↔
    ∃ name v, m.registers.get? name = some v ∧ .buffer b ∈ v.references := by
  constructor
  · intro hr
    cases hr with
    | held hv hr => exact ⟨_, _, hv, hr⟩
  · rintro ⟨name, v, hv, hr⟩
    exact .held hv hr

theorem reaches_buffer_of_registers (h : n.registers = k.registers) (hr : n.Reaches (.buffer b)) :
    k.Reaches (.buffer b) := by
  obtain ⟨name, v, hv, hb⟩ := reaches_buffer.mp hr
  rw [h] at hv
  exact .held hv hb

theorem reaches_buffer_setRegister {name : String} {v : Value} (hv : .buffer b ∉ v.references)
    (hr : (m.setRegister name v).Reaches (.buffer b)) : m.Reaches (.buffer b) := by
  obtain ⟨other, w, hget, hw⟩ := reaches_buffer.mp hr
  obtain ⟨_, rfl⟩ | hold := Table.get?_set_eq_some hget
  · exact absurd hw hv
  · exact .held hold hw

def Does (m : Machine) (i : Instruction) (n : Machine) (v : Value) : Prop :=
  ∃ into, (m.step ⟨i, into⟩).1 = n ∧ (m.step ⟨i, into⟩).2.result = .ok v

/-- The machine that an instruction leaves, but that a variable may have taken the answer. -/
structure Keeps (k n : Machine) (v : Value) : Prop where
  store : n.store = k.store
  names : n.stackNames = k.stackNames
  views : n.views = k.views
  buffers : ∀ b, .buffer b ∉ v.references → n.Reaches (.buffer b) → k.Reaches (.buffer b)

theorem Keeps.reaches_buffer {l : Machine} {v : Value} (h : Keeps l n v)
    (hregs : l.registers = k.registers) (hv : ∀ b, .buffer b ∉ v.references) :
    ∀ b, n.Reaches (.buffer b) → k.Reaches (.buffer b) := by
  intro b hr
  exact reaches_buffer_of_registers hregs (h.buffers b (hv b) hr)

theorem Does.keeps {i : Instruction} {v : Value} (h : m.Does i n v) :
    (m.runInstruction i).2.result = .ok v ∧ Keeps (m.runInstruction i).1 n v := by
  obtain ⟨into, rfl, hv⟩ := h
  rw [step] at hv ⊢
  obtain hk | ⟨name, w, _, hw, hk⟩ :=
    keep_cases (if i.hasResult then into else none) (m.runInstruction i)
  · rw [hk] at hv ⊢
    exact ⟨hv, rfl, rfl, rfl, fun _ _ hr => hr⟩
  · rw [hk] at hv ⊢
    rw [hw] at hv
    cases hv
    exact ⟨hw, rfl, rfl, rfl, fun b hb hr => reaches_buffer_setRegister hb hr⟩

theorem attempt_step (m : Machine) (s : Step) :
    (m.step s).2 = (m.runInstruction s.instruction).2 := by
  obtain hk | ⟨_, _, _, _, hk⟩ := keep_cases (if s.instruction.hasResult then s.into else none)
    (m.runInstruction s.instruction)
  · rw [step, hk]
  · rw [step, hk]

theorem result_step (m : Machine) (s : Step) :
    (m.step s).2.result = (m.runInstruction s.instruction).2.result :=
  congrArg Attempt.result (attempt_step m s)

theorem step_of_no_result {i : Instruction} (hi : i.hasResult = false) (into : Option String) :
    m.step ⟨i, into⟩ = m.runInstruction i := by
  simp [step, keep, hi]

theorem step_of_error {s : Step} {fault : Fault}
    (h : (m.runInstruction s.instruction).2.result = .error fault) :
    m.step s = m.runInstruction s.instruction := by
  obtain hk | ⟨_, v, _, hv, _⟩ :=
    keep_cases (if s.instruction.hasResult then s.into else none) (m.runInstruction s.instruction)
  · exact hk
  · rw [hv] at h
    cases h

theorem settle_ok {x : Attempt (Machine × Value)} {v : Value} (hx : x.result = .ok (k, v)) :
    (m.settle x).1 = k ∧ (m.settle x).2.result = .ok v :=
  after_ok hx rfl

theorem settle_error {x : Attempt (Machine × Value)} {fault : Fault}
    (hx : x.result = .error fault) :
    (m.settle x).1 = m ∧ (m.settle x).2.result = .error fault :=
  after_error hx

theorem settle_eq_ok {x : Attempt (Machine × Value)} {v : Value}
    (h : (m.settle x).2.result = .ok v) : x.result = .ok ((m.settle x).1, v) := by
  obtain ⟨k, w, hx, hv, hk⟩ := after_eq_ok h
  cases hv
  rw [hx, settle, hk]

theorem Does.of_settle {i : Instruction} {x : Attempt (Machine × Value)} {v : Value}
    (h : m.Does i n v) (hi : m.runInstruction i = m.settle x) :
    ∃ k, x.result = .ok (k, v) ∧ Keeps k n v := by
  obtain ⟨hv, hkeeps⟩ := h.keeps
  rw [hi] at hv hkeeps
  exact ⟨_, settle_eq_ok hv, hkeeps⟩

theorem runOp_eq_ok {id : StackId} {op : StackOp} {v : Value} :
    (m.runOp id op).2.result = .ok v ↔ ∃ answer,
      (op.run m.heap (m.store.stack id)).attempt.result = .ok answer ∧ v = answer.value := by
  rw [runOp, Attempt.result_map]
  cases (op.run m.heap (m.store.stack id)).attempt.result <;> simp [Except.map, eq_comm]

theorem Does.of_onStack {name : String} {call : StackCall} {v : Value}
    (h : m.Does (.onStack name call) n v) : ∃ id k op answer,
      m.stackNames.get? name = some id ∧ (call.resolve m).result = .ok (k, op) ∧
      (op.run k.heap (k.store.stack id)).attempt.result = .ok answer ∧ v = answer.value ∧
      Keeps ((k.withHeap (op.run k.heap (k.store.stack id)).heap).setStack id
        (op.run k.heap (k.store.stack id)).stack) n v := by
  obtain ⟨hv, hkeeps⟩ := h.keeps
  simp only [runInstruction, runOnStack] at hv hkeeps
  cases hid : (m.stackId name).result with
  | error fault =>
    simp only [hid] at hv
    cases hv
  | ok id =>
    simp only [hid] at hv hkeeps
    obtain ⟨k, op, hcall, hrun, hmachine⟩ := after_eq_ok hv
    obtain ⟨answer, hanswer, rfl⟩ := runOp_eq_ok.mp hrun
    rw [runStackOp, hmachine] at hkeeps
    exact ⟨id, k, op, answer, result_known_eq_ok.mp hid, hcall, hanswer, rfl, hkeeps⟩

theorem runStackOp_ok {id : StackId} {x : Attempt (Machine × StackOp)} {op : StackOp} {o : Outcome}
    {answer : Answer} (hx : x.result = .ok (k, op)) (ho : op.run k.heap (k.store.stack id) = o)
    (hanswer : o.attempt.result = .ok answer) :
    (m.runStackOp id x).1 = (k.withHeap o.heap).setStack id o.stack ∧
      (m.runStackOp id x).2.result = .ok answer.value := by
  subst ho
  exact after_ok hx (runOp_eq_ok.mpr ⟨answer, hanswer, rfl⟩)

/-- An operation that fails leaves its stack, and the buffers and entries that were there. -/
theorem runStackOp_error {id : StackId} {x : Attempt (Machine × StackOp)} {op : StackOp}
    {o : Outcome} {fault : Fault} (hw : m.Widens k) (hx : x.result = .ok (k, op))
    (ho : op.run k.heap (k.store.stack id) = o) (hfault : o.attempt.result = .error fault) :
    (m.runStackOp id x).1 = m.setStack id o.stack ∧
      (m.runStackOp id x).2.result = .error fault := by
  subst ho
  have hheap := (StackOp.shrinks_of_fault hfault).1
  have hrun : (k.runOp id op).2.result = .error fault := by
    rw [runOp, Attempt.result_map, hfault]
    rfl
  obtain ⟨hmachine, hanswer⟩ := after_fault (m := m) (f := fun m op => m.runOp id op) hx hrun
  refine ⟨hmachine.trans ?_, hanswer⟩
  rw [runOp, hheap]
  exact hw.dropNewer_setStack id _

theorem commitValue_entry_eq_ok {e : Entry} {v : Value}
    (h : (m.commitValue (.entry e)).2.result = .ok v) :
    ∃ data, (e.commit m.heap).result = .ok data ∧ v = .bytes data := by
  rw [commitValue, Attempt.result_map] at h
  cases hdata : (e.commit m.heap).result with
  | ok data =>
    rw [hdata] at h
    cases h
    exact ⟨data, rfl, rfl⟩
  | error fault =>
    rw [hdata] at h
    cases h

theorem setStack_stack (m : Machine) (id : StackId) : m.setStack id (m.store.stack id) = m := by
  rw [Machine.setStack, Store.setStack_stack]

theorem runOp_commit_error {id : StackId} {fault : Fault}
    (h : (m.runOp id .commit).2.result = .error fault) : (m.runOp id .commit).1 = m := by
  cases hx : (StackOp.commit.run m.heap (m.store.stack id)).attempt.result with
  | ok answer => cases (runOp_eq_ok.mpr ⟨answer, hx, rfl⟩).symm.trans h
  | error cause =>
    obtain ⟨hheap, hstack | ⟨_, _, _, hop, _⟩⟩ := StackOp.run_spares hx
    · rw [runOp, hheap, hstack]
      exact m.setStack_stack id
    · cases hop

theorem entryCommit_error {t : Term} {fault : Fault}
    (h : (m.after (t.eval m) commitValue).2.result = .error fault) :
    (m.after (t.eval m) commitValue).1 = m := by
  obtain hm | ⟨k, w, hw, hx, hmachine⟩ := after_eq_error h
  · exact hm
  · have hl := (Term.eval_leads m k w t hw).widens
    have hsame : (k.commitValue w).1 = k := by
      cases w with
      | stack id => exact runOp_commit_error hx
      | _ => rfl
    exact hmachine.trans ((congrArg (dropNewer · m) hsame).trans hl.dropNewer)

theorem does_of_settle {i : Instruction} {x : Attempt (Machine × Value)} {v : Value}
    (hi : m.runInstruction i = m.settle x) (hx : x.result = .ok (k, v)) : m.Does i k v := by
  have hstep : m.step ⟨i, none⟩ = m.runInstruction i := by
    rw [step]
    cases i.hasResult <;> rfl
  refine ⟨none, ?_⟩
  rw [hstep, hi]
  exact settle_ok hx

theorem runOnStack_eq {name : String} {id : StackId} (hid : m.stackNames.get? name = some id)
    (call : StackCall) : m.runOnStack name call = m.runStackOp id (call.resolve m) := by
  rw [runOnStack, stackId, hid]
  rfl

theorem result_onStack {name : String} {id : StackId} {call : StackCall} {op : StackOp}
    (hid : m.stackNames.get? name = some id) (hcall : (call.resolve m).result = .ok (k, op))
    (into : Option String) : (m.step ⟨.onStack name call, into⟩).2.result =
      (op.run k.heap (m.store.stack id)).attempt.result.map Answer.value := by
  have hw := (call.resolve_leads hcall).widens
  have hstack := hw.stack id
  rw [result_step, runInstruction, runOnStack_eq hid, ← hstack]
  cases hrun : (op.run k.heap (k.store.stack id)).attempt.result with
  | ok answer => exact (runStackOp_ok hcall rfl hrun).2
  | error fault => exact (runStackOp_error hw hcall rfl hrun).2

end Machine

end ScriptStack
