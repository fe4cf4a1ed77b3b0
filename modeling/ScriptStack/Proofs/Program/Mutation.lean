import ScriptStack.Proofs.Heap.Reading
import ScriptStack.Proofs.Program.Soundness

/-! Changes of a buffer in place: they reach every entry that shares the buffer, wherever it sits,
and nothing else. Nothing but such a change alters the bytes of a buffer. -/
namespace ScriptStack

namespace Entry

/-- An entry answers as one whose buffer holds the bytes. -/
structure Gives (h : Heap) (e : Entry) (data : Bytes) : Prop where
  bytes : e.toBytes h = data
  number : ∀ minimal, e.toNumber h minimal = Number.read data Number.defaultLimit minimal
  word : e.commit h = (Content.bytes data).commit

/-- An entry answers in one heap as it does in another. -/
structure GivesSame (h k : Heap) (e : Entry) : Prop where
  bytes : e.toBytes k = e.toBytes h
  number : ∀ minimal, e.toNumber k minimal = e.toNumber h minimal
  word : e.commit k = e.commit h

theorem gives_of_content {h : Heap} {e : Entry} {data : Bytes} (he : e.content h = .bytes data) :
    e.Gives h data where
  bytes := by
    rw [toBytes, he]
    rfl
  number minimal := by
    rw [toNumber, he]
    rfl
  word := by rw [commit, he]

theorem givesSame_of_content {h k : Heap} {e : Entry} (he : e.content k = e.content h) :
    e.GivesSame h k where
  bytes := by rw [toBytes, he, ← toBytes]
  number minimal := by rw [toNumber, he, ← toNumber]
  word := by rw [commit, he, ← commit]

end Entry

namespace Machine

/-- A change that can be made: the entry it is for, what its buffer held when the arguments had been
evaluated, and what becomes of that. -/
def Edits (m : Machine) (target : Term) (call : EditCall) (e : Entry) (before : Bytes)
    (effect : Edit.Effect) : Prop :=
  ∃ k b l edit, (target.eval m).result = .ok (k, .entry e) ∧ k.heap.operand e = .buffer b ∧
    (call.resolve k).result = .ok (l, edit) ∧ l.heap.read b = before ∧
    edit.apply before = .ok effect

theorem step_edit (m : Machine) (target : Term) (call : EditCall) (into : Option String) :
    m.step ⟨.edit target call, into⟩ = m.editBuffer target call :=
  step_of_no_result rfl into

variable {m : Machine} {target : Term} {call : EditCall} {into : Option String} {e : Entry}
  {before : Bytes} {effect : Edit.Effect}

theorem Edits.step (h : m.Edits target call e before effect) (into : Option String) :
    ∃ l b, m.Leads l [] ∧ l.heap.operand e = .buffer b ∧ l.heap.read b = before ∧
      (m.step ⟨.edit target call, into⟩).1 = l.withHeap (l.heap.write b effect.data) ∧
      (m.step ⟨.edit target call, into⟩).2.result = .ok (editAnswer effect) := by
  obtain ⟨k, b, l, edit, he, hb, hl, hread, heffect⟩ := h
  have hleads := call.resolve_leads hl
  have hop : l.heap.operand e = .buffer b := by
    rw [hleads.widens.heap.operand (Heap.hasEntry_of_operand hb), hb]
  have hedit : (m.editBuffer target call).1 = l.withHeap (l.heap.write b effect.data) ∧
      (m.editBuffer target call).2.result = .ok (editAnswer effect) :=
    editBuffer_eq_ok.mpr ⟨k, e, b, l, edit, effect, he, hb, hl, hread ▸ heffect, rfl, rfl⟩
  have hall : m.Leads l [] :=
    ((Term.eval_leads m k _ target he).trans hleads).mono fun r hr => by cases hr
  rw [step_edit]
  exact ⟨l, b, hall, hop, hread, hedit⟩

theorem edits_or_unchanged (m : Machine) (target : Term) (call : EditCall) (into : Option String) :
    (∃ e before effect, m.Edits target call e before effect) ∨
      (m.step ⟨.edit target call, into⟩).1 = m ∧
        ∃ fault, (m.step ⟨.edit target call, into⟩).2.result = .error fault := by
  rw [step_edit]
  cases hr : (m.editBuffer target call).2.result with
  | ok v =>
    obtain ⟨k, e, b, l, edit, effect, he, hb, hl, heffect, _, _⟩ := editBuffer_eq_ok.mp ⟨rfl, hr⟩
    exact .inl ⟨e, _, effect, k, b, l, edit, he, hb, hl, rfl, heffect⟩
  | error fault => exact .inr ⟨editBuffer_error hr, fault, rfl⟩

theorem Edits.gives (hm : m.Sound) (h : m.Edits target call e before effect) {f : Entry}
    (hf : m.Reaches (.entry f)) :
    let n := (m.step ⟨.edit target call, into⟩).1
    (f.Shares n.heap e → f.Gives n.heap effect.data) ∧
      (¬ f.Shares n.heap e → f.GivesSame m.heap n.heap) := by
  obtain ⟨l, b, hl, hop, _, hn, _⟩ := h.step into
  have hc := hl.closed hm
  simp only [hn]
  refine ⟨fun hs => ?_, fun hs => ?_⟩
  · exact Entry.gives_of_content (Entry.content_write_of_shares (hc e b hop) hop hs effect.data)
  · refine Entry.givesSame_of_content ?_
    have hwrite := Entry.content_write_of_not_shares hop hs effect.data
    exact hwrite.trans (Entry.content_of_grows hl.widens.heap hm.closed (hm.has _ hf))

theorem read_step (hm : m.Sound) {s : Step}
    (hs : ∀ target call, s.instruction ≠ .edit target call) {b : BufferId} (hb : m.heap.Holds b) :
    (m.step s).1.heap.read b = m.heap.read b := by
  have hf := runInstruction_follows hm hs
  obtain hk | ⟨name, v, _, _, hk⟩ :=
    keep_cases (if s.instruction.hasResult then s.into else none) (m.runInstruction s.instruction)
  · rw [Machine.step, hk]
    exact hf.heap.reads b hb
  · rw [Machine.step, hk]
    exact hf.heap.reads b hb

/-- A change of a buffer reaches exactly the entries that share it, in whatever slot, view or
variable they sit; the stacks, views and variables stay as they are. No other step alters a buffer. -/
theorem edit_reaches_sharers (program : List Step) :
    let m := start.run program
    (∀ target call into,
      let n := (m.step ⟨.edit target call, into⟩).1
      let answer := (m.step ⟨.edit target call, into⟩).2.result
      ((∃ e before effect, m.Edits target call e before effect) ∨
        n = m ∧ ∃ fault, answer = .error fault) ∧
      (∀ e before effect, m.Edits target call e before effect →
        answer = .ok (editAnswer effect) ∧
        (m.Reaches (.entry e) → before = e.toBytes m.heap) ∧
        ∀ f, m.Reaches (.entry f) →
          (f.Shares n.heap e → f.Gives n.heap effect.data) ∧
          (¬ f.Shares n.heap e → f.GivesSame m.heap n.heap)) ∧
      (∀ id, n.store.stack id = m.store.stack id) ∧ n.views = m.views ∧
      n.registers = m.registers) ∧
    ∀ s : Step, (∀ target call, s.instruction ≠ .edit target call) →
      ∀ b, m.heap.Holds b → (m.step s).1.heap.read b = m.heap.read b := by
  have hm := sound_run program
  refine ⟨fun target call into => ⟨edits_or_unchanged _ target call into, ?_, ?_⟩, ?_⟩
  · intro e before effect h
    obtain ⟨l, b, hl, hop, hread, _, hanswer⟩ := h.step into
    refine ⟨hanswer, fun he => ?_, fun f hf => h.gives hm hf⟩
    have hold := hm.has _ he
    have hb := (hl.widens.heap.operand hold).symm.trans hop
    rw [Entry.toBytes_of_buffer hb, ← hread, hl.widens.heap.reads b (hm.closed e b hb)]
  · obtain ⟨e, before, effect, h⟩ | ⟨hsame, _⟩ :=
      edits_or_unchanged (start.run program) target call into
    · obtain ⟨l, b, hl, _, _, hn, _⟩ := h.step into
      rw [hn]
      exact ⟨hl.widens.stack, hl.widens.views, hl.widens.registers⟩
    · rw [hsame]
      exact ⟨fun id => rfl, rfl, rfl⟩
  · intro s hs b hb
    exact read_step hm hs hb

/-- A slot that was pushed again shows a change of the buffer, a copy of it does not. -/
example :
    let peek := fun offset => Term.peek (.integer offset) "s"
    let m := start.run [⟨.onStack "s" (.pushBytes (.bytes [1])), none⟩,
      ⟨.onStack "s" (.push (peek (-1))), none⟩, ⟨.makeUnique (peek (-1)), some "copy"⟩,
      ⟨.onStack "s" (.push (.register "copy")), none⟩,
      ⟨.edit (peek (-2)) (.append (.integer 2)), none⟩]
    (m.store.stack ⟨0⟩).contents m.heap = [.bytes [1, 2], .bytes [1, 2], .bytes [1]] := by
  decide +kernel

end Machine

end ScriptStack
