import ScriptStack.Proofs.Program.Soundness
import ScriptStack.Proofs.Stack.Commitment

/-! Committing a stack of a program: all of its slots or none. -/
namespace ScriptStack

namespace Term

theorem eval_stack {m n : Machine} {id : StackId} {t : Term}
    (h : (t.eval m).result = .ok (n, .stack id)) : n = m ∧ m.Reaches (.stack id) := by
  cases t with
  | register name =>
    obtain ⟨v, hv, hn⟩ := Attempt.result_bind_eq_ok.mp h
    cases hn
    exact ⟨rfl, .held (Machine.result_known_eq_ok.mp hv) (List.mem_singleton_self _)⟩
  | stack name =>
    obtain ⟨id, hid, hn⟩ := Attempt.result_bind_eq_ok.mp h
    cases hn
    exact ⟨rfl, .named (Machine.result_known_eq_ok.mp hid)⟩
  | malformed | nothing | flag | integer | text | real | bytes | memory | byteArray => cases h
  | list items =>
    obtain ⟨_, _, hn⟩ := Attempt.result_bind_eq_ok.mp h
    cases hn
  | numberEntry value =>
    obtain ⟨⟨k, v⟩, _, hk⟩ := Attempt.result_bind_eq_ok.mp h
    have hentry : (newNumberEntry k v).result = .ok (n, .stack id) := hk
    unfold newNumberEntry at hentry
    split at hentry <;> cases hentry
  | scriptNumber value | bytesEntry contents | bufferOf entry =>
    obtain ⟨_, _, hk⟩ := Attempt.result_bind_eq_ok.mp h
    obtain ⟨_, _, hn⟩ := Attempt.result_bind_eq_ok.mp hk
    cases hn
  | peek offset name =>
    obtain ⟨_, _, hid⟩ := Attempt.result_bind_eq_ok.mp h
    obtain ⟨_, _, hk⟩ := Attempt.result_bind_eq_ok.mp hid
    obtain ⟨_, _, hn⟩ := Attempt.result_bind_eq_ok.mp hk
    cases hn

end Term

namespace Machine

variable {m : Machine} {id : StackId} {s : Step}

/-- A step that commits the stack, by a name of it or through a variable that holds it. -/
def Commits (m : Machine) (id : StackId) (s : Step) : Prop :=
  (∃ name, s.instruction = .onStack name .commit ∧ m.stackNames.get? name = some id) ∨
    ∃ t n, s.instruction = .entryCommit t ∧ (t.eval m).result = .ok (n, .stack id)

theorem Commits.reaches (h : m.Commits id s) : m.Reaches (.stack id) := by
  obtain ⟨name, _, hid⟩ | ⟨t, n, _, ht⟩ := h
  · exact .named hid
  · exact (Term.eval_stack ht).2

theorem Commits.run_ok (h : m.Commits id s) {data : Bytes}
    (hdata : ((m.store.stack id).commitment m.heap).result = .ok data) :
    (m.runInstruction s.instruction).1 = m.setStack id .empty ∧
      (m.runInstruction s.instruction).2.result = .ok (.bytes data) := by
  obtain ⟨name, hs, hid⟩ | ⟨t, n, hs, ht⟩ := h
  · rw [hs, runInstruction, runOnStack_eq hid]
    exact runStackOp_ok rfl (StackOp.run_commit_ok hdata) rfl
  · have hrun : m.runOp id .commit = (m.setStack id .empty,
        ⟨((m.store.stack id).commitment m.heap).log ++ [], .ok (.bytes data)⟩) := by
      rw [runOp, StackOp.run_commit_ok hdata]
      rfl
    rw [(Term.eval_stack ht).1] at ht
    rw [hs, runInstruction]
    obtain ⟨hmachine, hanswer⟩ := after_ok (m := m) (f := commitValue) ht
      (congrArg (fun y => y.2.result) hrun)
    exact ⟨hmachine.trans (congrArg Prod.fst hrun), hanswer⟩

theorem Commits.run_error (h : m.Commits id s) {fault : Fault}
    (hfault : ((m.store.stack id).commitment m.heap).result = .error fault) :
    (m.runInstruction s.instruction).1 = m ∧
      (m.runInstruction s.instruction).2.result = .error fault := by
  obtain ⟨name, hs, hid⟩ | ⟨t, n, hs, ht⟩ := h
  · have hrun : (m.runStackOp id (.done (m, .commit))).1 = m.setStack id (m.store.stack id) ∧
        (m.runStackOp id (.done (m, .commit))).2.result = .error fault :=
      runStackOp_error (.refl m) rfl (StackOp.run_commit_error hfault) rfl
    rw [setStack_stack] at hrun
    rw [hs, runInstruction, runOnStack_eq hid]
    exact hrun
  · have hrun : (m.runOp id .commit).2.result = .error fault := by
      rw [runOp, StackOp.run_commit_error hfault]
      rfl
    rw [(Term.eval_stack ht).1] at ht
    have hanswer := (after_fault (m := m) (f := commitValue) ht hrun).2
    rw [hs, runInstruction]
    exact ⟨entryCommit_error hanswer, hanswer⟩

theorem Commits.step_ok (h : m.Commits id s) {data : Bytes}
    (hdata : ((m.store.stack id).commitment m.heap).result = .ok data) :
    (m.step s).2.result = .ok (.bytes data) ∧ (m.step s).1.store = m.store.setStack id .empty ∧
      (m.step s).1.views = m.views ∧ (m.step s).1.stackNames = m.stackNames := by
  obtain ⟨hmachine, hanswer⟩ := h.run_ok hdata
  have hstep : (m.step s).2.result = .ok (.bytes data) := (result_step m s).trans hanswer
  have hdoes : m.Does s.instruction (m.step s).1 (.bytes data) := ⟨s.into, rfl, hstep⟩
  obtain ⟨_, hkeeps⟩ := hdoes.keeps
  rw [hmachine] at hkeeps
  exact ⟨hstep, hkeeps.store, hkeeps.views, hkeeps.names⟩

theorem Commits.step_error (h : m.Commits id s) {fault : Fault}
    (hfault : ((m.store.stack id).commitment m.heap).result = .error fault) :
    (m.step s).1 = m ∧ (m.step s).2.result = .error fault := by
  obtain ⟨hmachine, hanswer⟩ := h.run_error hfault
  rw [step_of_error hanswer]
  exact ⟨hmachine, hanswer⟩

theorem Commits.all (hm : m.Sound) (h : m.Commits id s)
    (hfit : ∀ e ∈ (m.store.stack id).slots, (e.content m.heap).Fits) :
    ∃ data, (m.step s).2.result = .ok (.bytes data) ∧
      data.length = 4 * (m.store.stack id).height ∧
      (∀ (i : Nat) (e : Entry), (m.store.stack id).slots[i]? = some e →
        (e.content m.heap).HasForm ((data.drop (4 * i)).take 4)) ∧
      (m.step s).1.store.stack id = .empty := by
  obtain ⟨hanswer, hstore, _⟩ := h.step_ok (Stack.commitEntries_of_fits hfit)
  have hword : ∀ e ∈ (m.store.stack id).slots, (e.content m.heap).word.length = 4 :=
    fun e he => Content.length_word (hfit e he)
  refine ⟨_, hanswer, ?_, fun i e he => ?_, ?_⟩
  · rw [length_flatMap_of_length hword, Stack.length_slots]
  · rw [take_drop_flatMap hword he]
    exact Content.hasForm_word _
  · rw [hstore]
    exact Store.stack_setStack_self (hm.has _ h.reaches) _

theorem Commits.nothing (h : m.Commits id s)
    (hnot : ¬ ∀ e ∈ (m.store.stack id).slots, (e.content m.heap).Fits) :
    (m.step s).1 = m ∧ ∃ fault below e above, (m.step s).2.result = .error fault ∧
      (m.store.stack id).slots = below ++ e :: above ∧
      (∀ f ∈ below, (f.content m.heap).Fits) ∧ ¬ (e.content m.heap).Fits ∧
      (e.content m.heap).Refuses fault := by
  obtain ⟨below, e, above, hslots, hbelow, he⟩ :=
    (Stack.fits_or_first m.heap (m.store.stack id).slots).resolve_left hnot
  obtain ⟨fault, hfault, hrefuses⟩ := Content.commit_of_not_fits he
  have hcommit : ((m.store.stack id).commitment m.heap).result = .error fault := by
    rw [Stack.commitment, hslots]
    exact Stack.commitEntries_of_not_fits hbelow hfault
  obtain ⟨hsame, hanswer⟩ := h.step_error hcommit
  exact ⟨hsame, fault, below, e, above, hanswer, hslots, hbelow, he, hrefuses⟩

theorem Commits.frame (h : m.Commits id s) : (m.step s).1.heap = m.heap ∧
    (∀ other, other ≠ id → (m.step s).1.store.stack other = m.store.stack other) ∧
      (m.step s).1.views = m.views ∧ (m.step s).1.stackNames = m.stackNames := by
  cases hdata : ((m.store.stack id).commitment m.heap).result with
  | ok data =>
    obtain ⟨_, hstore, hviews, hnames⟩ := h.step_ok hdata
    have hheap : (m.step s).1.heap = m.heap := by
      rw [heap, hstore]
      rfl
    refine ⟨hheap, fun other hne => ?_, hviews, hnames⟩
    rw [hstore, Store.stack_setStack_of_ne _ hne]
  | error fault =>
    rw [(h.step_error hdata).1]
    exact ⟨rfl, fun _ _ => rfl, rfl, rfl⟩

/-- Committing a stack takes all of its slots or none. The lowest slot that does not fit is refused, in
words that name it unless it is a number that cannot be written. -/
theorem commit_all_or_nothing (program : List Step) (id : StackId) (s : Step)
    (hs : (start.run program).Commits id s) :
    let m := start.run program
    let slots := (m.store.stack id).slots
    let n := (m.step s).1
    let answer := (m.step s).2.result
    ((∃ v, answer = .ok v) ↔ ∀ e ∈ slots, (e.content m.heap).Fits) ∧
    ((∀ e ∈ slots, (e.content m.heap).Fits) → ∃ data, answer = .ok (.bytes data) ∧
      data.length = 4 * (m.store.stack id).height ∧
      (∀ (i : Nat) (e : Entry), slots[i]? = some e →
        (e.content m.heap).HasForm ((data.drop (4 * i)).take 4)) ∧
      n.store.stack id = .empty) ∧
    ((¬ ∀ e ∈ slots, (e.content m.heap).Fits) → n = m ∧ ∃ fault below e above,
      answer = .error fault ∧ slots = below ++ e :: above ∧
      (∀ f ∈ below, (f.content m.heap).Fits) ∧ ¬ (e.content m.heap).Fits ∧
      (e.content m.heap).Refuses fault) ∧
    n.heap = m.heap ∧ (∀ other, other ≠ id → n.store.stack other = m.store.stack other) ∧
      n.views = m.views ∧ n.stackNames = m.stackNames := by
  have hm := sound_run program
  refine ⟨⟨fun ⟨v, hv⟩ => ?_, fun hfit => ?_⟩, fun hfit => hs.all hm hfit,
    fun hnot => hs.nothing hnot, hs.frame⟩
  · refine Classical.byContradiction fun hnot => ?_
    obtain ⟨_, fault, _, _, _, hfault, _⟩ := hs.nothing hnot
    cases hv.symm.trans hfault
  · obtain ⟨data, hanswer, _⟩ := hs.all hm hfit
    exact ⟨_, hanswer⟩

/-- A negative number and two bytes are committed together; five bytes in their place are refused. -/
theorem commit_number_and_bytes :
    let pushed := fun data : Bytes => start.run [⟨.onStack "s" (.pushNumber (.integer (-1))), none⟩,
      ⟨.onStack "s" (.pushBytes (.bytes data)), none⟩]
    let commit : Step := ⟨.onStack "s" .commit, none⟩
    ((pushed [1, 2]).Commits ⟨0⟩ commit ∧
      ∃ data, ((pushed [1, 2]).step commit).2.result = .ok (.bytes data) ∧ data.length = 8) ∧
    ((pushed [1, 2, 3, 4, 5]).Commits ⟨0⟩ commit ∧
      ((pushed [1, 2, 3, 4, 5]).step commit).1 = pushed [1, 2, 3, 4, 5]) := by
  intro pushed commit
  have hfits : (pushed [1, 2]).Commits ⟨0⟩ commit := .inl ⟨"s", rfl, rfl⟩
  have hwide : (pushed [1, 2, 3, 4, 5]).Commits ⟨0⟩ commit := .inl ⟨"s", rfl, rfl⟩
  obtain ⟨data, hanswer, hlength, _⟩ :=
    (commit_all_or_nothing _ ⟨0⟩ commit hfits).2.1 (by decide +kernel)
  refine ⟨⟨hfits, data, hanswer, hlength⟩, hwide, ?_⟩
  exact ((commit_all_or_nothing _ ⟨0⟩ commit hwide).2.2.1 (by decide +kernel)).1

/-- A number that cannot be written does not fit, but its refusal is no violation of the contract. -/
theorem commit_overlong_number :
    let m := start.run [⟨.onStack "s" (.pushNumber (.integer Decimal.overlong)), none⟩]
    let commit : Step := ⟨.onStack "s" .commit, none⟩
    m.Commits ⟨0⟩ commit ∧ ¬ ((Entry.mk 0).content m.heap).Fits ∧ (m.step commit).1 = m ∧
      (m.step commit).2.result = .error (.misuse .badValue) ∧
      ¬ Family.contract.Stops (m.step commit).2.result := by
  intro m commit
  have hcommits : m.Commits ⟨0⟩ commit := .inl ⟨"s", rfl, rfl⟩
  have hwide : ¬ (Content.number Decimal.overlong).Fits := by
    intro hfits
    have hlarge := Decimal.le_overlong
    have hv : (Decimal.overlong : Int) ≤ 2 ^ 32 - 1 := hfits
    omega
  obtain ⟨fault, hfault, hrefuses⟩ := Content.commit_of_not_fits hwide
  have hbad : fault = .misuse .badValue := by
    rwa [Content.Refuses, Content.isWritable, Decimal.isWritable_overlong,
      if_neg Bool.false_ne_true] at hrefuses
  rw [hbad] at hfault
  have hnone : ∀ f ∈ ([] : List Entry), (f.content m.heap).Fits :=
    fun _ hf => absurd hf List.not_mem_nil
  obtain ⟨hsame, hanswer⟩ :=
    hcommits.step_error (Stack.commitEntries_of_not_fits (e := ⟨0⟩) hnone hfault)
  refine ⟨hcommits, hwide, hsame, hanswer, ?_⟩
  rw [hanswer]
  exact Family.not_stops_misuse _ _

end Machine

end ScriptStack
