import ScriptStack.Proofs.Program.Success
import ScriptStack.Proofs.Program.Update
import ScriptStack.Proofs.Stack.Change
import ScriptStack.Proofs.Stack.Seeding

/-! Running programs: every machine that is reached is sound, and only a change of a buffer changes
the bytes of a buffer. -/
namespace ScriptStack

namespace Machine

variable {m n : Machine}

theorem ask_leads {α : Type} {t : Term} {question : Machine → Value → Except Misuse α}
    {answer : α → Value} {v : Value} (hanswer : ∀ a, (answer a).references = [])
    (h : (m.ask t question answer).result = .ok (n, v)) : m.Leads n v.references := by
  obtain ⟨⟨k, w⟩, hw, hk⟩ := Attempt.result_bind_eq_ok.mp h
  obtain ⟨a, _, hn⟩ := Attempt.result_bind_eq_ok.mp hk
  cases hn
  exact (Term.eval_leads m n w t hw).mono fun r hr => by rw [hanswer] at hr; cases hr

/-- From a sound machine to a sound one, in which all that there was lasts. -/
structure Continues (m n : Machine) (rs : List Reference) : Prop where
  store : m.store.Persists n.store
  sound : n.Sound
  has : ∀ r ∈ rs, n.store.Has r

/-- Moreover, every buffer that there was keeps its bytes. -/
structure Follows (m n : Machine) (rs : List Reference) : Prop extends Continues m n rs where
  heap : m.heap.Grows n.heap

theorem Leads.follows (hm : m.Sound) {rs : List Reference} (hl : m.Leads n rs) : m.Follows n rs :=
  ⟨⟨hl.widens.persists, hl.sound hm, hl.has hm⟩, hl.widens.heap⟩

theorem follows_self (hm : m.Sound) : m.Follows m [] := (leads_nil m).follows hm

theorem Follows.trans {k : Machine} {qs rs : List Reference} (hk : m.Follows k qs)
    (hn : k.Follows n rs) : m.Follows n rs :=
  ⟨⟨hk.store.trans hn.store, hn.sound, hn.has⟩, hk.heap.trans hn.heap⟩

theorem Follows.nil {rs : List Reference} (h : m.Follows n rs) : m.Follows n [] :=
  ⟨⟨h.store, h.sound, fun r hr => by cases hr⟩, h.heap⟩

theorem follows_setStack (hm : m.Sound) (id : StackId) {s : Stack}
    (hs : ∀ e ∈ s.entries, m.heap.HasEntry e) : m.Follows (m.setStack id s) [] :=
  ⟨⟨persists_setStack m id s, hm.setStack hs, fun r hr => by cases hr⟩, .refl _⟩

theorem follows_addStack (hm : m.Sound) (name : String) {s : Stack}
    (hs : ∀ e ∈ s.entries, m.heap.HasEntry e) : m.Follows (m.addStack name s) [] :=
  ⟨⟨persists_addStack m name s, hm.addStack hs, fun r hr => by cases hr⟩, .refl _⟩

theorem follows_withHeap (hm : m.Sound) {h : Heap} (hg : m.heap.Grows h) (hc : h.Closed) :
    m.Follows (m.withHeap h) [] :=
  ⟨⟨persists_withHeap hg.toPersists, hm.withHeap hg.toPersists hc, fun r hr => by cases hr⟩, hg⟩

theorem follows_setView (hm : m.Sound) (name : String) {v : View}
    (hv : ∀ e ∈ v.entries, m.heap.HasEntry e) : m.Follows (m.setView name v) [] :=
  ⟨⟨.refl _, hm.setView hv, fun r hr => by cases hr⟩, .refl _⟩

/-! What each instruction leads to, when it succeeds. -/

theorem seedStack_follows (hm : m.Sound) {name : String} {buffers : Term} {v : Value}
    (h : (m.seedStack name buffers).2.result = .ok v) :
    m.Follows (m.seedStack name buffers).1 v.references := by
  obtain ⟨k, w, items, s, hw, _, hs, rfl, hmachine⟩ := seedStack_eq_ok h
  have hl := (Term.eval_leads m k w buffers hw).follows hm
  have hseeds := (Stack.seed_seeds hl.sound.closed hs).2
  have hheap := follows_withHeap hl.sound hseeds.grows hseeds.closed
  have hadd := follows_addStack hheap.sound name fun e he =>
    Heap.Fresh.hasEntry (hseeds.fresh e he).2
  rw [hmachine]
  exact (hl.trans hheap).trans hadd

theorem takeView_follows (hm : m.Sound) {stack view : String} {v : Value}
    (h : (m.takeView stack view).result = .ok (n, v)) : m.Follows n v.references := by
  obtain ⟨id, _, hn⟩ := Attempt.result_bind_eq_ok.mp h
  cases hn
  have hitems : ∀ e ∈ (View.ofStack (m.store.stack id)).entries, m.heap.HasEntry e :=
    fun e he => hm.has _ (.slot (View.mem_ofStack.mp he))
  exact follows_setView hm view hitems

theorem references_bytes (items : List Bytes) : (Value.list (items.map .bytes)).references = [] := by
  induction items with
  | nil => rfl
  | cons data rest ih => exact ih

theorem readView_leads {name : String} {query : ViewQuery} {v : Value}
    (h : (m.readView name query).result = .ok (n, v)) : m.Leads n v.references := by
  obtain ⟨view, _, hq⟩ := Attempt.result_bind_eq_ok.mp h
  cases query with
  | items =>
    cases hq
    rw [references_bytes]
    exact leads_nil m
  | itemsReversed =>
    cases hq
    rw [references_bytes]
    exact leads_nil m
  | size =>
    cases hq
    exact leads_nil m
  | item index =>
    obtain ⟨⟨k, w⟩, hw, hk⟩ := Attempt.result_bind_eq_ok.mp hq
    obtain ⟨i, _, hi⟩ := Attempt.result_bind_eq_ok.mp hk
    split at hi
    · cases hi
      exact (Term.eval_leads m n w index hw).mono fun r hr => by cases hr
    · cases hi

theorem wrap_leads {v w : Value} (hm : m.Sound → ∀ r ∈ v.references, m.store.Has r)
    (h : (Term.wrap m v).result = .ok (n, w)) : m.Leads n w.references := by
  unfold Term.wrap at h
  split at h
  · rename_i b
    cases h
    exact leads_ofBuffer fun hs => hm hs _ (List.mem_singleton_self _)
  · cases h

theorem table_references (rows : List (Nat × Content)) :
    (Answer.value (.table rows)).references = [] := by
  induction rows with
  | nil => rfl
  | cons row rest ih => exact ih

theorem answer_references {a : Answer} {r : Reference} (hr : r ∈ a.value.references) :
    ∃ e, a = .entry e ∧ r = .entry e := by
  cases a with
  | entry e => exact ⟨e, rfl, List.mem_singleton.mp hr⟩
  | table rows =>
    rw [table_references] at hr
    cases hr
  | nothing | flag | integer | bytes | text => cases hr

theorem follows_stackOp {s : Stack} {op : StackOp} (hm : m.Sound)
    (hs : ∀ e ∈ s.entries, m.heap.HasEntry e) (hop : ∀ r ∈ op.references, m.store.Has r) :
    m.heap.Grows (op.run m.heap s).heap ∧ (op.run m.heap s).heap.Closed ∧
      ∀ e ∈ (op.run m.heap s).stack.entries, (op.run m.heap s).heap.HasEntry e := by
  refine StackOp.run_keeps hm.closed hs fun e he => hop (.entry e) ?_
  rw [he]
  exact List.mem_singleton_self _

end Machine

def Attempt.references (x : Attempt Value) : List Reference :=
  match x.result with
  | .ok v => v.references
  | .error _ => []

namespace Machine

variable {m n : Machine}

/-- An instruction that leaves all as it was where it fails is looked at where it succeeds. -/
theorem follows_of_ok (hm : m.Sound) {y : Machine × Attempt Value}
    (hok : ∀ v, y.2.result = .ok v → m.Follows y.1 v.references)
    (herror : ∀ fault, y.2.result = .error fault → y.1 = m) : m.Follows y.1 y.2.references := by
  rw [Attempt.references]
  cases hr : y.2.result with
  | ok v => exact hok v hr
  | error fault =>
    rw [herror fault hr]
    exact follows_self hm

theorem settle_follows (hm : m.Sound) {x : Attempt (Machine × Value)}
    (hx : ∀ n v, x.result = .ok (n, v) → m.Follows n v.references) :
    m.Follows (m.settle x).1 (m.settle x).2.references := by
  refine follows_of_ok hm (fun v hv => hx _ v (settle_eq_ok hv)) fun fault hf => ?_
  cases hr : x.result with
  | ok y => cases (settle_ok hr).2.symm.trans hf
  | error cause => exact (settle_error hr).1

theorem runOp_follows (hm : m.Sound) (id : StackId) {op : StackOp}
    (hop : ∀ r ∈ op.references, m.store.Has r) :
    m.Follows (m.runOp id op).1 (m.runOp id op).2.references := by
  have hslots : ∀ e ∈ (m.store.stack id).entries, m.heap.HasEntry e :=
    fun e he => hm.has _ (.slot he)
  obtain ⟨hg, hc, hentries⟩ := follows_stackOp hm hslots hop
  have hheap := follows_withHeap hm hg hc
  have hall := hheap.trans (follows_setStack hheap.sound id hentries)
  refine ⟨⟨hall.store, hall.sound, fun r hr => ?_⟩, hall.heap⟩
  cases hx : (m.runOp id op).2.result with
  | error fault =>
    rw [Attempt.references, hx] at hr
    cases hr
  | ok v =>
    rw [Attempt.references, hx] at hr
    obtain ⟨answer, hanswer, rfl⟩ := runOp_eq_ok.mp hx
    obtain ⟨e, rfl, rfl⟩ := answer_references hr
    exact hg.hasEntry (hslots e (StackOp.mem_of_run hanswer))

theorem runStackOp_follows (hm : m.Sound) (id : StackId) (call : StackCall) :
    m.Follows (m.runStackOp id (call.resolve m)).1 (m.runStackOp id (call.resolve m)).2.references := by
  cases hr : (call.resolve m).result with
  | error fault =>
    obtain ⟨hmachine, hanswer⟩ := after_error (m := m) (f := fun m op => m.runOp id op) hr
    rw [runStackOp, hmachine, Attempt.references, hanswer]
    exact follows_self hm
  | ok y =>
    obtain ⟨n, op⟩ := y
    have hl := call.resolve_leads hr
    have hn := hl.follows hm
    cases ha : (op.run n.heap (n.store.stack id)).attempt.result with
    | ok answer =>
      obtain ⟨hmachine, hanswer⟩ := runStackOp_ok (m := m) hr rfl ha
      have hrun := runOp_follows hn.sound id hn.has
      have hrefs : (n.runOp id op).2.references = answer.value.references := by
        rw [Attempt.references, runOp_eq_ok.mpr ⟨answer, ha, rfl⟩]
      rw [hrefs] at hrun
      rw [hmachine, Attempt.references, hanswer]
      exact hn.trans hrun
    | error fault =>
      obtain ⟨hmachine, hanswer⟩ := runStackOp_error hl.widens hr rfl ha
      rw [hmachine, Attempt.references, hanswer]
      refine follows_setStack hm id fun e he => ?_
      have hold := (StackOp.shrinks_of_fault ha).2.subset he
      rw [hl.widens.stack] at hold
      exact hm.has _ (.slot hold)

theorem entryCommit_follows (hm : m.Sound) (t : Term) :
    m.Follows (m.after (t.eval m) commitValue).1 (m.after (t.eval m) commitValue).2.references := by
  refine follows_of_ok hm (fun v hv => ?_) fun fault hf => ?_
  · obtain ⟨k, w, hw, hx, hmachine⟩ := after_eq_ok hv
    have hl := (Term.eval_leads m k w t hw).follows hm
    rw [hmachine]
    cases w with
    | entry e =>
      obtain ⟨data, _, rfl⟩ := commitValue_entry_eq_ok hx
      exact hl.nil
    | stack id =>
      have hgiven : ∀ r ∈ StackOp.commit.references, k.store.Has r := nofun
      have hrun := runOp_follows hl.sound id hgiven
      rw [Attempt.references, show (k.runOp id .commit).2.result = .ok v from hx] at hrun
      exact hl.trans hrun
    | _ => cases hx
  · exact entryCommit_error hf

theorem runInstruction_follows (hm : m.Sound) {i : Instruction}
    (hi : ∀ entry call, i ≠ .edit entry call) :
    m.Follows (m.runInstruction i).1 (m.runInstruction i).2.references := by
  cases i with
  | edit entry call => exact absurd rfl (hi entry call)
  | create name =>
    refine settle_follows hm fun n v h => ?_
    cases h
    exact follows_addStack hm name fun e he => by cases he
  | seed name buffers =>
    exact follows_of_ok hm (fun v h => seedStack_follows hm h) fun fault h => seedStack_error h
  | onStack name call =>
    simp only [runInstruction, runOnStack]
    split
    · exact runStackOp_follows hm _ call
    · exact follows_self hm
  | takeView stack view => exact settle_follows hm fun n v h => takeView_follows hm h
  | readView view query => exact settle_follows hm fun n v h => (readView_leads h).follows hm
  | evaluate value =>
    refine settle_follows hm fun n v h => ?_
    obtain ⟨⟨k, w⟩, hw, hk⟩ := Attempt.result_bind_eq_ok.mp h
    cases hk
    exact (Term.eval_leads m n v value hw).follows hm
  | wrap buffer =>
    refine settle_follows hm fun n v h => ?_
    obtain ⟨⟨k, w⟩, hw, hk⟩ := Attempt.result_bind_eq_ok.mp h
    have hl := (Term.eval_leads m k w buffer hw).follows hm
    exact hl.trans ((wrap_leads (fun _ => hl.has) hk).follows hl.sound)
  | share entry =>
    refine settle_follows hm fun n v h => ?_
    obtain ⟨k, e, b, he, hb, hk⟩ := withBuffer_eq_ok.mp h
    cases hk
    have hl := (Term.eval_leads m k _ entry he).follows hm
    exact hl.trans ((leads_ofBuffer fun hk => hk.closed e b hb).follows hl.sound)
  | makeUnique entry =>
    refine settle_follows hm fun n v h => ?_
    obtain ⟨k, e, b, he, hb, hk⟩ := withBuffer_eq_ok.mp h
    cases hk
    have hl := (Term.eval_leads m k _ entry he).follows hm
    exact hl.trans ((leads_ofBytes k _).follows hl.sound)
  | isShared entry other =>
    refine settle_follows hm fun n v h => ?_
    obtain ⟨k, e, b, he, hb, hk⟩ := withBuffer_eq_ok.mp h
    obtain ⟨l, f, c, hf, hc, hl⟩ := withBuffer_eq_ok.mp hk
    cases hl
    have hfirst := (Term.eval_leads m k _ entry he).follows hm
    exact hfirst.trans ((Term.eval_leads k n _ other hf).follows hfirst.sound).nil
  | entryBytes entry => exact settle_follows hm fun n v h => (ask_leads (fun _ => rfl) h).follows hm
  | entryNumber entry minimal =>
    refine settle_follows hm fun n v h => ?_
    obtain ⟨k, e, he, hk⟩ := withEntry_eq_ok.mp h
    obtain ⟨number, _, hn⟩ := Attempt.result_bind_eq_ok.mp hk
    cases hn
    exact ((Term.eval_leads m n _ entry he).follows hm).nil
  | entryCommit entry => exact entryCommit_follows hm entry
  | entryValue entry => exact settle_follows hm fun n v h => (ask_leads (fun _ => rfl) h).follows hm
  | entryDisplay entry =>
    refine settle_follows hm fun n v h => ?_
    obtain ⟨⟨k, w⟩, hw, hk⟩ := Attempt.result_bind_eq_ok.mp h
    obtain ⟨shown, _, hn⟩ := Attempt.result_bind_eq_ok.mp hk
    cases hn
    exact ((Term.eval_leads m n w entry hw).follows hm).nil
  | equal left right =>
    refine settle_follows hm fun n v h => ?_
    obtain ⟨⟨k, w⟩, hw, hk⟩ := Attempt.result_bind_eq_ok.mp h
    obtain ⟨⟨l, u⟩, hu, hl⟩ := Attempt.result_bind_eq_ok.mp hk
    obtain ⟨b, _, hn⟩ := Attempt.result_bind_eq_ok.mp hl
    cases hn
    have hfirst := (Term.eval_leads m k w left hw).follows hm
    exact hfirst.trans ((Term.eval_leads k n u right hu).follows hfirst.sound).nil
  | setSize items =>
    refine settle_follows hm fun n v h => ?_
    obtain ⟨⟨k, w⟩, hw, hk⟩ := Attempt.result_bind_eq_ok.mp h
    obtain ⟨vs, _, hvs⟩ := Attempt.result_bind_eq_ok.mp hk
    obtain ⟨count, _, hn⟩ := Attempt.result_bind_eq_ok.mp hvs
    cases hn
    exact ((Term.eval_leads m n w items hw).follows hm).nil
  | readBuffer entry =>
    refine settle_follows hm fun n v h => ?_
    obtain ⟨k, e, b, he, hb, hk⟩ := withBuffer_eq_ok.mp h
    cases hk
    exact ((Term.eval_leads m n _ entry he).follows hm).nil

theorem editAnswer_references (effect : Edit.Effect) : (editAnswer effect).references = [] := by
  unfold editAnswer
  split <;> rfl

theorem editBuffer_continues (hm : m.Sound) {target : Term} {call : EditCall} {v : Value}
    (h : (m.editBuffer target call).2.result = .ok v) :
    m.Continues (m.editBuffer target call).1 v.references := by
  obtain ⟨k, e, b, l, edit, effect, he, _, hl, _, hn, rfl⟩ := editBuffer_eq_ok.mp ⟨rfl, h⟩
  have hk := (Term.eval_leads m k _ target he).follows hm
  have hall := hk.trans ((call.resolve_leads hl).follows hk.sound)
  have hp := l.heap.persists_write b effect.data
  rw [hn]
  refine ⟨hall.store.trans (persists_withHeap hp), hall.sound.withHeap hp (hall.sound.closed.write _ _),
    fun r hr => ?_⟩
  rw [editAnswer_references] at hr
  cases hr

theorem runInstruction_continues (hm : m.Sound) (i : Instruction) :
    m.Continues (m.runInstruction i).1 (m.runInstruction i).2.references := by
  by_cases hi : ∃ entry call, i = .edit entry call
  · obtain ⟨entry, call, rfl⟩ := hi
    rw [runInstruction, Attempt.references]
    cases hr : (m.editBuffer entry call).2.result with
    | ok v => exact editBuffer_continues hm hr
    | error fault =>
      rw [editBuffer_error hr]
      exact (follows_self hm).toContinues
  · exact (runInstruction_follows hm fun entry call h => hi ⟨entry, call, h⟩).toContinues

theorem keep_continues {y : Machine × Attempt Value} (into : Option String)
    (hy : m.Continues y.1 y.2.references) :
    m.Continues (keep into y).1 (keep into y).2.references := by
  obtain hk | ⟨name, v, _, hv, hk⟩ := keep_cases into y
  · rw [hk]
    exact hy
  · have hrefs : ∀ r ∈ v.references, y.1.store.Has r := fun r hr =>
      hy.has r (by rw [Attempt.references, hv]; exact hr)
    rw [hk]
    exact ⟨hy.store, hy.sound.setRegister hrefs, hy.has⟩

theorem step_continues (hm : m.Sound) (s : Step) :
    m.Continues (m.step s).1 (m.step s).2.references :=
  keep_continues _ (runInstruction_continues hm s.instruction)

theorem run_continues (hm : m.Sound) (steps : List Step) : m.Continues (m.run steps) [] := by
  induction steps generalizing m with
  | nil => exact (follows_self hm).toContinues
  | cons s rest ih =>
    have hs := step_continues hm s
    have hrest := ih hs.sound
    exact ⟨hs.store.trans hrest.store, hrest.sound, hrest.has⟩

theorem sound_run (program : List Step) : (start.run program).Sound :=
  (run_continues sound_start program).sound

end Machine

end ScriptStack
