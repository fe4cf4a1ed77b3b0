import ScriptStack.Proofs.Fault
import ScriptStack.Proofs.Heap.Growth
import ScriptStack.Stack.Operation

/-! All that an operation on a stack can change: it pushes one entry, or it only takes entries off. -/
namespace ScriptStack

theorem Stack.mem_of_top {s : Stack} {offset : Position} {e : Entry}
    (h : (s.top offset).result = .ok e) : e ∈ s.entries := by
  unfold Stack.top at h
  split at h
  · rw [result_refuse] at h
    cases h
  · split at h
    · rw [result_refuse] at h
      cases h
    · split at h
      · rename_i he
        cases h
        exact List.mem_of_getElem? he
      · cases h

/-- The buffers and entries are as before, and the slots are some of those before, in their order. -/
def Outcome.Shrinks (h : Heap) (s : Stack) (o : Outcome) : Prop :=
  o.heap = h ∧ o.stack.entries.Sublist s.entries

namespace StackOp

variable {h : Heap} {s : Stack}

theorem shrinks_read {α : Type} (x : Attempt α) (answer : α → Answer) :
    (Outcome.read h s x answer).Shrinks h s :=
  ⟨rfl, List.Sublist.refl _⟩

theorem shrinks_after {α : Type} {check : Attempt α} {act : α → Outcome}
    (hact : ∀ a, (act a).Shrinks h s) : (Outcome.after h s check act).Shrinks h s := by
  cases hc : check.result with
  | ok a =>
    rw [Outcome.after_ok hc]
    exact hact a
  | error fault =>
    rw [Outcome.after_error hc]
    exact ⟨rfl, List.Sublist.refl _⟩

theorem shrinks_consume {α : Type} (read : Entry → Except Fault α) (answer : α → Answer) :
    (consume h s read answer).Shrinks h s := by
  unfold consume
  split
  · exact ⟨rfl, List.Sublist.refl _⟩
  · exact ⟨rfl, List.drop_sublist _ _⟩

theorem consume_stack {α : Type} (read : Entry → Except Fault α) (answer : α → Answer) :
    (consume h s read answer).stack = s.drop 1 := by
  obtain ⟨l⟩ := s
  cases l <;> rfl

/-- An operation that is given what it can take pushes one entry; any other one pushes none. -/
theorem run_change (h : Heap) (s : Stack) (op : StackOp) :
    (op.run h s).Shrinks h s ∨
    (∃ e, op = .push (.ok e) ∧ op.run h s = ⟨h, s.push e, .done .nothing⟩) ∨
    (∃ v, op = .pushNumber (.ok v) ∧ op.run h s =
      ⟨(Entry.ofNumber h v).1, s.push (Entry.ofNumber h v).2, .done .nothing⟩) ∨
    ∃ data, op = .pushBytes (.ok data) ∧ op.run h s =
      ⟨(Entry.ofBytes h data).1, s.push (Entry.ofBytes h data).2, .done .nothing⟩ := by
  cases op with
  | push entry =>
    cases entry with
    | ok e => exact .inr (.inl ⟨e, rfl, rfl⟩)
    | error kind => exact .inl ⟨rfl, List.Sublist.refl _⟩
  | pushNumber value =>
    cases value with
    | ok v => exact .inr (.inr (.inl ⟨v, rfl, rfl⟩))
    | error kind => exact .inl ⟨rfl, List.Sublist.refl _⟩
  | pushBytes data =>
    cases data with
    | ok data => exact .inr (.inr (.inr ⟨data, rfl, rfl⟩))
    | error cause => exact .inl ⟨rfl, List.Sublist.refl _⟩
  | pop =>
    refine .inl ?_
    simp only [run, popTop]
    split
    · exact ⟨rfl, List.Sublist.refl _⟩
    · exact ⟨rfl, List.drop_sublist _ _⟩
  | popN n => exact .inl (shrinks_after fun k => ⟨rfl, List.drop_sublist _ _⟩)
  | removeAt index => exact .inl (shrinks_after fun d => ⟨rfl, List.eraseIdx_sublist _ _⟩)
  | commit => exact .inl (shrinks_after fun data => ⟨rfl, List.nil_sublist _⟩)
  | popBytes => exact .inl (shrinks_consume _ _)
  | popNumber minimal => exact .inl (shrinks_consume _ _)
  | height | isEmpty | hasEntries | top | topBytes | topNumber | last | bytesAt | needAtLeast
  | display | json | table => exact .inl (shrinks_read _ _)

def Quiet : StackOp → Prop
  | push (.ok _) | pushNumber (.ok _) | pushBytes (.ok _) => False
  | _ => True

theorem Quiet.shrinks {op : StackOp} (hop : op.Quiet) (h : Heap) (s : Stack) :
    (op.run h s).Shrinks h s := by
  obtain hshrinks | ⟨e, rfl, _⟩ | ⟨v, rfl, _⟩ | ⟨data, rfl, _⟩ := run_change h s op
  · exact hshrinks
  all_goals cases hop

theorem quiet_or_push (op : StackOp) : op.Quiet ∨ (∃ e, op = push (.ok e)) ∨
    (∃ v, op = pushNumber (.ok v)) ∨ ∃ data, op = pushBytes (.ok data) := by
  cases op with
  | push given | pushNumber given | pushBytes given => cases given <;> simp [Quiet]
  | _ => simp [Quiet]

theorem run_keeps {op : StackOp} (hc : h.Closed) (hs : ∀ e ∈ s.entries, h.HasEntry e)
    (hop : ∀ e, op = push (.ok e) → h.HasEntry e) :
    h.Grows (op.run h s).heap ∧ (op.run h s).heap.Closed ∧
      ∀ e ∈ (op.run h s).stack.entries, (op.run h s).heap.HasEntry e := by
  have hpush : ∀ {k : Heap} {e : Entry}, h.Grows k → k.HasEntry e →
      ∀ f ∈ (s.push e).entries, k.HasEntry f := by
    intro k e hg he f hf
    obtain rfl | hf := List.mem_cons.mp hf
    · exact he
    · exact hg.hasEntry (hs f hf)
  obtain ⟨hheap, hsub⟩ | ⟨e, rfl, ho⟩ | ⟨v, rfl, ho⟩ | ⟨data, rfl, ho⟩ := run_change h s op
  · rw [hheap]
    exact ⟨.refl _, hc, fun e he => hs e (hsub.subset he)⟩
  · rw [ho]
    exact ⟨.refl _, hc, hpush (.refl _) (hop e rfl)⟩
  · rw [ho]
    have hg := Entry.grows_make h (.number v)
    exact ⟨hg, Entry.closed_ofNumber hc v, hpush hg (Entry.hasEntry_make _ _)⟩
  · rw [ho]
    have hg := Entry.grows_ofBytes h data
    exact ⟨hg, Entry.closed_ofBytes hc data, hpush hg (Entry.hasEntry_ofBytes _ _)⟩

theorem shrinks_of_fault {op : StackOp} {fault : Fault}
    (hf : (op.run h s).attempt.result = .error fault) : (op.run h s).Shrinks h s := by
  obtain hs | ⟨e, _, ho⟩ | ⟨v, _, ho⟩ | ⟨data, _, ho⟩ := run_change h s op
  · exact hs
  all_goals
    rw [ho] at hf
    cases hf

theorem entry_of_read {α : Type} {x : Attempt α} {answer : α → Answer} {e : Entry}
    (hr : (Outcome.read h s x answer).attempt.result = .ok (.entry e)) :
    ∃ a, x.result = .ok a ∧ answer a = .entry e := by
  obtain ⟨a, ha, hd⟩ := Attempt.result_bind_eq_ok.mp hr
  exact ⟨a, ha, Except.ok.inj hd⟩

theorem ne_entry_of_after {α : Type} {check : Attempt α} {act : α → Outcome} {e : Entry}
    (hact : ∀ a, (act a).attempt.result ≠ .ok (.entry e)) :
    (Outcome.after h s check act).attempt.result ≠ .ok (.entry e) := by
  cases hc : check.result with
  | ok a =>
    rw [Outcome.after_ok hc]
    exact hact a
  | error fault =>
    rw [Outcome.after_error hc]
    exact nofun

theorem mem_of_run {op : StackOp} {e : Entry}
    (hr : (op.run h s).attempt.result = .ok (.entry e)) : e ∈ s.entries := by
  cases op with
  | top offset =>
    obtain ⟨f, hf, he⟩ := entry_of_read hr
    cases he
    exact Stack.mem_of_top hf
  | pop =>
    simp only [run, popTop] at hr
    split at hr
    · cases hr
    · rename_i f rest hs
      cases hr
      rw [hs]
      exact List.mem_cons_self
  | popBytes | popNumber =>
    simp only [run, consume] at hr
    split at hr
    · cases hr
    · obtain ⟨a, _, he⟩ := entry_of_read hr
      cases he
  | push given | pushNumber given | pushBytes given => cases given <;> cases hr
  | popN | removeAt | commit => exact absurd hr (ne_entry_of_after fun _ => nofun)
  | height | isEmpty | hasEntries | topBytes | topNumber | last | bytesAt | needAtLeast
  | display | json | table =>
    obtain ⟨a, _, he⟩ := entry_of_read hr
    cases he

end StackOp

end ScriptStack
