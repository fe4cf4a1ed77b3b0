import ScriptStack.Proofs.Program.Soundness

/-! Sharing of buffers: it is decided when an entry is made, by what the entry is made from, and it
lasts for as long as the entries do. -/
namespace ScriptStack

namespace Entry

theorem equivalence_shares (h : Heap) :
    Equivalence fun e f : { e : Entry // e.kind h = .bytesEntry } => e.1.Shares h f.1 := by
  refine ⟨fun e => ?_, fun hs => hs.symm, fun hef hfg => hef.trans hfg⟩
  obtain ⟨b, hb⟩ := Operand.kind_eq_bytesEntry.mp e.2
  exact ⟨b, hb, hb⟩

theorem shares_iff_of_buffer {h : Heap} {e : Entry} {b : BufferId} (he : h.operand e = .buffer b)
    (f : Entry) : f.Shares h e ↔ h.operand f = .buffer b := by
  constructor
  · rintro ⟨c, hf, hc⟩
    rw [he] at hc
    cases hc
    exact hf
  · intro hf
    exact ⟨b, hf, he⟩

end Entry

namespace Machine

variable {k m n : Machine} {e : Entry} {b : BufferId}

/-- An entry that was made between two machines and has a buffer to itself: no byte array that there
was is its buffer, no other entry refers to it, and no variable holds it. -/
structure Owns (k n : Machine) (e : Entry) : Prop where
  new : ¬ k.heap.HasEntry e
  fresh : k.heap.Fresh n.heap e
  unheld : ∀ b, n.heap.operand e = .buffer b → ¬ n.Reaches (.buffer b)

/-- An entry that was made between two machines and shares with whatever another one shares with. -/
structure Joins (k n : Machine) (e f : Entry) : Prop where
  new : ¬ k.heap.HasEntry e
  shares : ∀ g : Entry, g.Shares n.heap e ↔ g.Shares n.heap f

theorem owns_of_fresh (hk : k.Sound) (hnew : ¬ k.heap.HasEntry e) (hf : k.heap.Fresh n.heap e)
    (hregs : ∀ b, n.Reaches (.buffer b) → k.Reaches (.buffer b)) : k.Owns n e := by
  refine ⟨hnew, hf, fun b hb hr => ?_⟩
  obtain ⟨c, hc, hheld, _⟩ := hf
  rw [hb] at hc
  cases hc
  exact hheld (hk.has _ (hregs b hr))

theorem owns_ofBytes (hk : k.Sound) {data : Bytes}
    (hn : n.heap = (Entry.ofBytes k.heap data).1)
    (hregs : ∀ b, n.Reaches (.buffer b) → k.Reaches (.buffer b)) :
    k.Owns n (Entry.ofBytes k.heap data).2 := by
  have hf := Heap.fresh_ofBytes hk.closed data
  rw [← hn] at hf
  exact owns_of_fresh hk (Heap.not_hasEntry_nextEntry _) hf hregs

theorem joins_ofBuffer {f : Entry} (hn : n.heap = (Entry.ofBuffer k.heap b).1)
    (hf : k.heap.operand f = .buffer b) : k.Joins n (Entry.ofBuffer k.heap b).2 f := by
  have hf' : n.heap.operand f = .buffer b := by
    rw [hn]
    exact ((Entry.grows_make _ _).operand (Heap.hasEntry_of_operand hf)).trans hf
  have he : n.heap.operand (Entry.ofBuffer k.heap b).2 = .buffer b := by
    rw [hn]
    exact (Heap.operand_addEntry _ _ _).trans (if_pos rfl)
  refine ⟨Heap.not_hasEntry_nextEntry _, fun g => ?_⟩
  rw [Entry.shares_iff_of_buffer he, Entry.shares_iff_of_buffer hf']

/-! What the entries share that the instructions make, or pass on. -/

theorem bytesEntry_owns (hk : k.Sound) {contents : Term} {v : Value}
    (h : (Term.eval k (.bytesEntry contents)).result = .ok (n, v)) : ∃ l w e,
      (contents.eval k).result = .ok (l, w) ∧ v = .entry e ∧ l.Owns n e := by
  obtain ⟨⟨l, w⟩, hw, hl⟩ := Attempt.result_bind_eq_ok.mp h
  obtain ⟨data, _, hn⟩ := Attempt.result_bind_eq_ok.mp hl
  cases hn
  have hsound := (Term.eval_leads k l w contents hw).sound hk
  have hregs : (l.withHeap (Entry.ofBytes l.heap data).1).registers = l.registers := rfl
  exact ⟨l, w, _, hw, rfl, owns_ofBytes hsound rfl fun _ => reaches_buffer_of_registers hregs⟩

theorem Owns.not_mem {rs : List Reference} (h : k.Owns n e) (hrs : ∀ r ∈ rs, k.store.Has r)
    (hb : n.heap.operand e = .buffer b) : .buffer b ∉ rs := by
  intro hr
  obtain ⟨c, hc, hheld, _⟩ := h.fresh
  rw [hb] at hc
  cases hc
  exact hheld (hrs _ hr)

section Instructions

variable {t u : Term} {name : String} {v : Value}

theorem makeUnique_owns (hm : m.Sound) (h : m.Does (.makeUnique t) n v) : ∃ k e f,
    (t.eval m).result = .ok (k, .entry e) ∧ v = .entry f ∧ k.Owns n f := by
  obtain ⟨l, hl, hkeeps⟩ := h.of_settle rfl
  obtain ⟨k, e, b, he, hb, hk⟩ := withBuffer_eq_ok.mp hl
  cases hk
  have hsound := (Term.eval_leads m k _ t he).sound hm
  have hregs := hkeeps.reaches_buffer (k := k) rfl fun c => by simp [Value.references]
  exact ⟨k, e, _, he, rfl, owns_ofBytes hsound (congrArg Store.heap hkeeps.store) hregs⟩

theorem share_joins (h : m.Does (.share t) n v) : ∃ k e f,
    (t.eval m).result = .ok (k, .entry e) ∧ v = .entry f ∧ k.Joins n f e := by
  obtain ⟨l, hl, hkeeps⟩ := h.of_settle rfl
  obtain ⟨k, e, b, he, hb, hk⟩ := withBuffer_eq_ok.mp hl
  cases hk
  exact ⟨k, e, _, he, rfl, joins_ofBuffer (congrArg Store.heap hkeeps.store) hb⟩

theorem wrap_joins (h : m.Does (.wrap t) n v) : ∃ k b f,
    (t.eval m).result = .ok (k, .byteArray b) ∧ v = .entry f ∧
      ∀ e, k.heap.operand e = .buffer b → k.Joins n f e := by
  obtain ⟨l, hl, hkeeps⟩ := h.of_settle rfl
  obtain ⟨⟨k, w⟩, hw, hk⟩ := Attempt.result_bind_eq_ok.mp hl
  cases w with
  | byteArray b =>
    cases hk
    exact ⟨k, b, _, hw, rfl, fun e hb => joins_ofBuffer (congrArg Store.heap hkeeps.store) hb⟩
  | _ => cases hk

theorem wrap_bufferOf_joins (h : m.Does (.wrap (.bufferOf t)) n v) : ∃ k e f,
    (t.eval m).result = .ok (k, .entry e) ∧ v = .entry f ∧ k.Joins n f e := by
  obtain ⟨k, b, f, hb, hv, hjoins⟩ := wrap_joins h
  obtain ⟨⟨l, w⟩, hw, hl⟩ := Attempt.result_bind_eq_ok.mp hb
  obtain ⟨c, hc, hk⟩ := Attempt.result_bind_eq_ok.mp hl
  cases hk
  obtain ⟨e, rfl, he⟩ := Value.asBuffer_eq_ok.mp (Attempt.result_ofGiven_eq_ok.mp hc)
  exact ⟨k, e, f, hw, hv, hjoins e he⟩

theorem slots_setStack_push {rs : List Reference} {id : StackId} (hm : m.Sound)
    (hl : m.Leads k rs) (hid : m.stackNames.get? name = some id) (h : Heap) (e : Entry) :
    (((k.withHeap h).setStack id ((k.store.stack id).push e)).store.stack id).slots =
      (m.store.stack id).slots ++ [e] := by
  have hlt : id.index < k.store.stackCells.length :=
    hl.widens.persists.has (hm.has _ (.named hid))
  have hset : ((k.withHeap h).setStack id ((k.store.stack id).push e)).store.stack id =
      (k.store.stack id).push e := Store.stack_setStack_self hlt _
  rw [hset, Stack.slots_push, hl.widens.stack]

theorem pushBytes_owns (hm : m.Sound) (h : m.Does (.onStack name (.pushBytes t)) n v) :
    ∃ id k w e, m.stackNames.get? name = some id ∧ (t.eval m).result = .ok (k, w) ∧ k.Owns n e ∧
      (n.store.stack id).slots = (m.store.stack id).slots ++ [e] := by
  obtain ⟨id, k, op, answer, hid, hcall, hrun, rfl, hkeeps⟩ := h.of_onStack
  obtain ⟨w, hw, rfl, hl⟩ := StackCall.withArgument_leads hcall
  cases hdata : w.newBytes k.heap with
  | error cause =>
    rw [hdata] at hrun
    cases hrun
  | ok data =>
    rw [hdata] at hrun hkeeps
    cases hrun
    have hregs := hkeeps.reaches_buffer (k := k) rfl fun c => by simp [Answer.value, Value.references]
    refine ⟨id, k, w, (Entry.ofBytes k.heap data).2, hid, hw, ?_, ?_⟩
    · exact owns_ofBytes (hl.sound hm) (congrArg Store.heap hkeeps.store) hregs
    · rw [hkeeps.store]
      exact slots_setStack_push hm hl hid _ _

theorem push_same (hm : m.Sound) (h : m.Does (.onStack name (.push t)) n v) : ∃ id k e,
    m.stackNames.get? name = some id ∧ (t.eval m).result = .ok (k, .entry e) ∧
      n.heap = k.heap ∧ (n.store.stack id).slots = (m.store.stack id).slots ++ [e] := by
  obtain ⟨id, k, op, answer, hid, hcall, hrun, rfl, hkeeps⟩ := h.of_onStack
  obtain ⟨w, hw, rfl, hl⟩ := StackCall.withArgument_leads hcall
  cases w with
  | entry e =>
    refine ⟨id, k, e, hid, hw, (congrArg Store.heap hkeeps.store).trans rfl, ?_⟩
    rw [hkeeps.store]
    exact slots_setStack_push hm hl hid _ _
  | _ => cases hrun

theorem seed_owns (hm : m.Sound) (h : m.Does (.seed name t) n v) : ∃ id k w items,
    n.stackNames.get? name = some id ∧ (t.eval m).result = .ok (k, w) ∧
      w.items k.heap = .ok items ∧ (n.store.stack id).slots.length = items.length ∧
      (n.store.stack id).slots.Nodup ∧ ∀ e ∈ (n.store.stack id).slots, k.Owns n e := by
  obtain ⟨hv, hkeeps⟩ := h.keeps
  obtain ⟨k, w, items, s, hw, hitems, hs, rfl, hmachine⟩ := seedStack_eq_ok hv
  rw [runInstruction, hmachine] at hkeeps
  have hsound := (Term.eval_leads m k w t hw).sound hm
  obtain ⟨hlength, hseeds⟩ := Stack.seed_seeds hsound.closed hs
  have hnew : n.store.stack k.store.next = s := by
    rw [hkeeps.store]
    exact Store.stack_addStack_next _ _
  refine ⟨k.store.next, k, w, items, ?_, hw, hitems, ?_, ?_, ?_⟩
  · rw [hkeeps.names]
    exact Table.get?_set_self _ _ _
  · rw [hnew, Stack.slots, List.length_reverse, hlength, List.length_map]
  · rw [hnew]
    exact (List.reverse_perm s.entries).nodup_iff.mpr hseeds.nodup
  · intro e he
    rw [hnew] at he
    obtain ⟨hnone, hfresh⟩ := hseeds.fresh e (List.mem_reverse.mp he)
    have hheap : n.heap = _ := congrArg Store.heap hkeeps.store
    have hregs := hkeeps.reaches_buffer (k := k) rfl fun c => by simp [Value.references]
    exact owns_of_fresh hsound hnone (hheap ▸ hfresh) hregs

theorem mem_of_onStack {call : StackCall} (h : m.Does (.onStack name call) n (.entry e)) :
    ∃ id, m.stackNames.get? name = some id ∧ e ∈ (m.store.stack id).slots := by
  obtain ⟨id, k, op, answer, hid, hcall, hrun, hanswer, _⟩ := h.of_onStack
  refine ⟨id, hid, List.mem_reverse.mpr ?_⟩
  cases answer <;> cases hanswer
  rw [← (call.resolve_leads hcall).widens.stack]
  exact StackOp.mem_of_run hrun

theorem isShared_answer (h : m.Does (.isShared t u) n v) : ∃ k e l f answer,
    (t.eval m).result = .ok (k, .entry e) ∧ (u.eval k).result = .ok (l, .entry f) ∧
      v = .flag answer ∧ (answer = true ↔ e.Shares n.heap f) := by
  obtain ⟨l, hl, hkeeps⟩ := h.of_settle rfl
  obtain ⟨k, e, b, he, hb, hk⟩ := withBuffer_eq_ok.mp hl
  obtain ⟨l, f, c, hf, hc, hreply⟩ := withBuffer_eq_ok.mp hk
  cases hreply
  refine ⟨k, e, _, f, _, he, hf, rfl, ?_⟩
  have hkept := (Term.eval_leads k _ _ u hf).widens.heap.operand (Heap.hasEntry_of_operand hb)
  rw [Machine.heap, hkeeps.store, ← Machine.heap, Entry.shares_iff_of_buffer hc, hkept, hb,
    beq_iff_eq, Operand.buffer.injEq]

theorem buffer_answers (he : (t.eval m).result = .ok (k, .entry e))
    (hb : e.kind k.heap = .bytesEntry) :
    (∃ n v, m.Does (.makeUnique t) n v) ∧ (∃ n v, m.Does (.share t) n v) ∧
      (∃ n v, m.Does (.wrap (.bufferOf t)) n v) ∧
      ∀ l f, (u.eval k).result = .ok (l, .entry f) → f.kind l.heap = .bytesEntry →
        ∃ n v, m.Does (.isShared t u) n v := by
  obtain ⟨b, hb⟩ := Operand.kind_eq_bytesEntry.mp hb
  refine ⟨?_, ?_, ?_, fun l f hf hc => ?_⟩
  · exact ⟨_, _, does_of_settle rfl (withBuffer_eq_ok.mpr ⟨k, e, b, he, hb, rfl⟩)⟩
  · exact ⟨_, _, does_of_settle rfl (withBuffer_eq_ok.mpr ⟨k, e, b, he, hb, rfl⟩)⟩
  · have hbuffer : ((Term.bufferOf t).eval m).result = .ok (k, .byteArray b) := by
      refine Attempt.result_bind_eq_ok.mpr ⟨_, he, Attempt.result_bind_eq_ok.mpr ⟨b, ?_, rfl⟩⟩
      exact Attempt.result_ofGiven_eq_ok.mpr (Value.asBuffer_eq_ok.mpr ⟨e, rfl, hb⟩)
    exact ⟨_, _, does_of_settle rfl (Attempt.result_bind_eq_ok.mpr ⟨_, hbuffer, rfl⟩)⟩
  · obtain ⟨c, hc⟩ := Operand.kind_eq_bytesEntry.mp hc
    have hother : (k.withBuffer u fun m c => m.reply (.flag (b == c))).result =
        .ok (l, .flag (b == c)) := withBuffer_eq_ok.mpr ⟨l, f, c, hf, hc, rfl⟩
    exact ⟨_, _, does_of_settle rfl (withBuffer_eq_ok.mpr ⟨k, e, b, he, hb, hother⟩)⟩

end Instructions

theorem shares_run (hm : m.Sound) (steps : List Step) {f : Entry} (he : m.heap.HasEntry e)
    (hf : m.heap.HasEntry f) : e.Shares (m.run steps).heap f ↔ e.Shares m.heap f :=
  Entry.shares_of_persists (run_continues hm steps).store.heap he hf

/-- How entries come to share buffers, from a machine on: an entry that copies bytes owns its
buffer, one that is made from an entry joins it, and nothing that happens later changes that. -/
structure DecidesSharing (m : Machine) : Prop where
  bytesEntry : ∀ earlier k vs contents n v, (Term.evalAll m earlier).result = .ok (k, vs) →
    (Term.eval k (.bytesEntry contents)).result = .ok (n, v) → ∃ l w e,
      (contents.eval k).result = .ok (l, w) ∧ v = .entry e ∧ l.Owns n e ∧
        ∀ b, n.heap.operand e = .buffer b → .buffer b ∉ Value.allReferences (w :: vs)
  makeUnique : ∀ t n v, m.Does (.makeUnique t) n v → ∃ k e f,
    (t.eval m).result = .ok (k, .entry e) ∧ v = .entry f ∧ k.Owns n f
  pushBytes : ∀ name t n v, m.Does (.onStack name (.pushBytes t)) n v → ∃ id k w e,
    m.stackNames.get? name = some id ∧ (t.eval m).result = .ok (k, w) ∧ k.Owns n e ∧
      (n.store.stack id).slots = (m.store.stack id).slots ++ [e]
  seed : ∀ name t n v, m.Does (.seed name t) n v → ∃ id k w items,
    n.stackNames.get? name = some id ∧ (t.eval m).result = .ok (k, w) ∧
      w.items k.heap = .ok items ∧ (n.store.stack id).slots.length = items.length ∧
      (n.store.stack id).slots.Nodup ∧ ∀ e ∈ (n.store.stack id).slots, k.Owns n e
  share : ∀ t n v, m.Does (.share t) n v → ∃ k e f,
    (t.eval m).result = .ok (k, .entry e) ∧ v = .entry f ∧ k.Joins n f e
  wrap : ∀ t n v, m.Does (.wrap t) n v → ∃ k b f,
    (t.eval m).result = .ok (k, .byteArray b) ∧ v = .entry f ∧
      ∀ e, k.heap.operand e = .buffer b → k.Joins n f e
  wrapBufferOf : ∀ t n v, m.Does (.wrap (.bufferOf t)) n v → ∃ k e f,
    (t.eval m).result = .ok (k, .entry e) ∧ v = .entry f ∧ k.Joins n f e
  handedOut : ∀ name call n e, m.Does (.onStack name call) n (.entry e) → ∃ id,
    m.stackNames.get? name = some id ∧ e ∈ (m.store.stack id).slots
  push : ∀ name t n v, m.Does (.onStack name (.push t)) n v → ∃ id k e,
    m.stackNames.get? name = some id ∧ (t.eval m).result = .ok (k, .entry e) ∧
      n.heap = k.heap ∧ (n.store.stack id).slots = (m.store.stack id).slots ++ [e]
  equivalence : Equivalence fun e f : { e : Entry // e.kind m.heap = .bytesEntry } =>
    e.1.Shares m.heap f.1
  isShared : ∀ t u n v, m.Does (.isShared t u) n v → ∃ k e l f shared,
    (t.eval m).result = .ok (k, .entry e) ∧ (u.eval k).result = .ok (l, .entry f) ∧
      v = .flag shared ∧ (shared = true ↔ e.Shares n.heap f)
  answers : ∀ t u k e, (t.eval m).result = .ok (k, .entry e) → e.kind k.heap = .bytesEntry →
    (∃ n v, m.Does (.makeUnique t) n v) ∧ (∃ n v, m.Does (.share t) n v) ∧
      (∃ n v, m.Does (.wrap (.bufferOf t)) n v) ∧
      ∀ l f, (u.eval k).result = .ok (l, .entry f) → f.kind l.heap = .bytesEntry →
        ∃ n v, m.Does (.isShared t u) n v
  exist : ∀ e, m.Reaches (.entry e) → m.heap.HasEntry e
  last : ∀ steps (e f : Entry), m.heap.HasEntry e → m.heap.HasEntry f →
    (e.Shares (m.run steps).heap f ↔ e.Shares m.heap f)

theorem Sound.decidesSharing (hm : m.Sound) : m.DecidesSharing where
  bytesEntry earlier k vs contents n v hvs h := by
    have hearlier := Term.evalAll_leads m k vs earlier hvs
    have hk := hearlier.sound hm
    obtain ⟨l, w, e, hw, hv, howns⟩ := bytesEntry_owns hk h
    have hall := hearlier.trans (Term.eval_leads k l w contents hw)
    refine ⟨l, w, e, hw, hv, howns, fun b hb => howns.not_mem (fun r hr => ?_) hb⟩
    obtain hr | hr := List.mem_append.mp hr
    · exact hall.has hm r (List.mem_append_right _ hr)
    · exact hall.has hm r (List.mem_append_left _ hr)
  makeUnique t n v h := makeUnique_owns hm h
  pushBytes name t n v h := pushBytes_owns hm h
  seed name t n v h := seed_owns hm h
  share t n v h := share_joins h
  wrap t n v h := wrap_joins h
  wrapBufferOf t n v h := wrap_bufferOf_joins h
  handedOut name call n e h := mem_of_onStack h
  push name t n v h := push_same hm h
  equivalence := Entry.equivalence_shares m.heap
  isShared t u n v h := isShared_answer h
  answers t u k e he hb := buffer_answers he hb
  exist e he := hm.has _ he
  last steps e f he hf := shares_run hm steps he hf

/-- In every run, sharing is decided once and for all when an entry is made. -/
theorem run_decidesSharing (program : List Step) : (start.run program).DecidesSharing :=
  (sound_run program).decidesSharing

end Machine

end ScriptStack
