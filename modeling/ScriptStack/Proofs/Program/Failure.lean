import ScriptStack.Proofs.Program.Soundness
import ScriptStack.Proofs.Stack.Failure

/-! What a step that fails leaves: the machine as it was, but for the one entry that was popped as a
number and could not be read. -/
namespace ScriptStack

theorem StackCall.eq_popNumber {m k : Machine} {call : StackCall} {minimal : Bool}
    (h : (call.resolve m).result = .ok (k, .popNumber minimal)) :
    call = .popNumber minimal ∧ k = m := by
  cases call with
  | popNumber flag =>
    cases h
    exact ⟨rfl, rfl⟩
  | height | isEmpty | hasEntries | last | pop | popBytes | commit | display | json | table =>
    cases h
  | top | topBytes | topNumber | bytesAt | needAtLeast | push | pushNumber | pushBytes | popN
  | removeAt =>
    obtain ⟨v, _, hop, _⟩ := StackCall.withArgument_leads h
    cases hop

namespace Machine

variable {m : Machine} {fault : Fault}

/-- Popping a number from a stack of the program that has a top entry, which cannot be read. -/
structure PopsUnreadable (m : Machine) (name : String) (minimal : Bool) (id : StackId) (e : Entry)
    (rest : List Entry) (fault : Fault) : Prop where
  named : m.stackNames.get? name = some id
  entries : (m.store.stack id).entries = e :: rest
  unreadable : e.toNumber m.heap minimal = .error fault

theorem settle_of_fault {x : Attempt (Machine × Value)}
    (hf : (m.settle x).2.result = .error fault) : (m.settle x).1 = m := by
  cases hx : x.result with
  | ok y => cases (settle_ok hx).2.symm.trans hf
  | error cause => exact (settle_error hx).1

theorem runStackOp_of_fault {id : StackId} {call : StackCall}
    (hf : (m.runStackOp id (call.resolve m)).2.result = .error fault) :
    (m.runStackOp id (call.resolve m)).1 = m ∨ ∃ minimal e rest, call = .popNumber minimal ∧
      (m.store.stack id).entries = e :: rest ∧ e.toNumber m.heap minimal = .error fault ∧
      (m.runStackOp id (call.resolve m)).1 = m.setStack id ⟨rest⟩ := by
  cases hcall : (call.resolve m).result with
  | error cause => exact .inl (after_error hcall).1
  | ok y =>
    obtain ⟨k, op⟩ := y
    cases hrun : (op.run k.heap (k.store.stack id)).attempt.result with
    | ok answer =>
      have hok : (m.runStackOp id (call.resolve m)).2.result = .ok answer.value :=
        (runStackOp_ok hcall rfl hrun).2
      rw [hok] at hf
      cases hf
    | error cause =>
      have hleaves : (m.runStackOp id (call.resolve m)).1 =
            m.setStack id (op.run k.heap (k.store.stack id)).stack ∧
          (m.runStackOp id (call.resolve m)).2.result = .error cause :=
        runStackOp_error (call.resolve_leads hcall).widens hcall rfl hrun
      obtain ⟨hmachine, hcause⟩ := hleaves
      rw [hcause] at hf
      cases hf
      rw [hmachine]
      obtain ⟨_, hstack | ⟨minimal, e, rest, rfl, hentries, he, hstack⟩⟩ := StackOp.run_spares hrun
      · left
        rw [hstack, (call.resolve_leads hcall).widens.stack, setStack_stack]
      · obtain ⟨rfl, rfl⟩ := StackCall.eq_popNumber hcall
        exact .inr ⟨minimal, e, rest, rfl, hentries, he, by rw [hstack]⟩

theorem runOnStack_of_fault {name : String} {call : StackCall}
    (hf : (m.runOnStack name call).2.result = .error fault) :
    (m.runOnStack name call).1 = m ∨ ∃ minimal id e rest, call = .popNumber minimal ∧
      m.PopsUnreadable name minimal id e rest fault ∧
      (m.runOnStack name call).1 = m.setStack id ⟨rest⟩ := by
  unfold runOnStack at hf ⊢
  cases hid : (m.stackId name).result with
  | error cause =>
    left
    simp only [hid]
  | ok id =>
    simp only [hid] at hf ⊢
    obtain hsame | ⟨minimal, e, rest, hcall, hentries, he, hstack⟩ := runStackOp_of_fault hf
    · exact .inl hsame
    · exact .inr ⟨minimal, id, e, rest, hcall, ⟨result_known_eq_ok.mp hid, hentries, he⟩, hstack⟩

theorem runInstruction_of_fault {i : Instruction}
    (hf : (m.runInstruction i).2.result = .error fault) :
    (m.runInstruction i).1 = m ∨ ∃ name minimal id e rest, i = .onStack name (.popNumber minimal) ∧
      m.PopsUnreadable name minimal id e rest fault ∧
      (m.runInstruction i).1 = m.setStack id ⟨rest⟩ := by
  cases i with
  | onStack name call =>
    obtain hsame | ⟨minimal, id, e, rest, rfl, hpops, hstack⟩ := runOnStack_of_fault hf
    · exact .inl hsame
    · exact .inr ⟨name, minimal, id, e, rest, rfl, hpops, hstack⟩
  | seed name buffers => exact .inl (seedStack_error hf)
  | entryCommit entry => exact .inl (entryCommit_error hf)
  | edit entry call => exact .inl (editBuffer_error hf)
  | _ => exact .inl (settle_of_fault hf)

/-- A step that fails leaves the machine as it was, unless it pops a number that cannot be read. -/
theorem step_of_fault {s : Step} (hf : (m.step s).2.result = .error fault) :
    (m.step s).1 = m ∨ ∃ name minimal id e rest,
      s.instruction = .onStack name (.popNumber minimal) ∧
      m.PopsUnreadable name minimal id e rest fault ∧ (m.step s).1 = m.setStack id ⟨rest⟩ := by
  have hrun := (result_step m s).symm.trans hf
  rw [step_of_error hrun]
  exact runInstruction_of_fault hrun

theorem PopsUnreadable.step {name : String} {minimal : Bool} {id : StackId} {e : Entry}
    {rest : List Entry} (h : m.PopsUnreadable name minimal id e rest fault) (into : Option String) :
    (m.step ⟨.onStack name (.popNumber minimal), into⟩).1 = m.setStack id ⟨rest⟩ ∧
      (m.step ⟨.onStack name (.popNumber minimal), into⟩).2.result = .error fault := by
  have hop := StackOp.run_popNumber_error h.entries h.unreadable
  have hrun : (m.runInstruction (.onStack name (.popNumber minimal))).1 = m.setStack id ⟨rest⟩ ∧
      (m.runInstruction (.onStack name (.popNumber minimal))).2.result = .error fault := by
    rw [runInstruction, runOnStack_eq h.named]
    exact runStackOp_error (.refl m) rfl hop rfl
  rw [step_of_error hrun.2]
  exact hrun

theorem exists_map_ok {items : List Value} {heap : Heap}
    (h : ∀ v ∈ items, ∃ data, v.newBytes heap = .ok data) :
    ∃ good : List Bytes, items.map (Value.newBytes heap) = good.map .ok := by
  induction items with
  | nil => exact ⟨[], rfl⟩
  | cons v rest ih =>
    obtain ⟨good, hgood⟩ := ih fun w hw => h w (List.mem_cons_of_mem v hw)
    obtain ⟨data, hdata⟩ := h v List.mem_cons_self
    exact ⟨data :: good, by rw [List.map_cons, List.map_cons, hdata, hgood]⟩

theorem step_seed_error {k : Machine} {name : String} {t : Term} {into : Option String}
    {w item : Value} {good rest : List Value} {cause : Misuse} (ht : (t.eval m).result = .ok (k, w))
    (hitems : w.items k.heap = .ok (good ++ item :: rest))
    (hgood : ∀ v ∈ good, ∃ data, v.newBytes k.heap = .ok data)
    (hitem : item.newBytes k.heap = .error cause) :
    (m.step ⟨.seed name t, into⟩).1 = m ∧
      (m.step ⟨.seed name t, into⟩).2.result = .error (.misuse cause) := by
  obtain ⟨before, hbefore⟩ := exists_map_ok hgood
  have hseed : (Stack.seed k.heap ((good ++ item :: rest).map (Value.newBytes k.heap))).2.result =
      .error (.misuse cause) := by
    rw [List.map_append, List.map_cons, hbefore, hitem]
    exact Stack.seed_error before _
  have hfails : (m.seedStack name t).2.result = .error (.misuse cause) := by
    rw [result_seedStack ht hitems, hseed]
    rfl
  have hrun : (m.runInstruction (.seed name t)).2.result = .error (.misuse cause) := hfails
  rw [step_of_error hrun]
  exact ⟨seedStack_error hfails, hfails⟩

/-- An operation that fails leaves the buffers and the stack, and a step that fails leaves the whole
machine, as they were. The one exception takes the top entry off a stack, and that alone. A stack
whose items are not all byte strings is not seeded at all. -/
theorem failure_leaves_state (program : List Step) :
    let m := start.run program
    (∀ (h : Heap) (s : Stack) (op : StackOp) (fault : Fault),
      (op.run h s).attempt.result = .error fault → op.Spares h s fault (op.run h s)) ∧
    (∀ (s : Step) (fault : Fault), (m.step s).2.result = .error fault →
      (m.step s).1 = m ∨ ∃ name minimal id e rest,
        s.instruction = .onStack name (.popNumber minimal) ∧
        m.PopsUnreadable name minimal id e rest fault) ∧
    (∀ name minimal id e rest fault into, m.PopsUnreadable name minimal id e rest fault →
      let n := (m.step ⟨.onStack name (.popNumber minimal), into⟩).1
      (m.step ⟨.onStack name (.popNumber minimal), into⟩).2.result = .error fault ∧
      n.store.stack id = ⟨rest⟩ ∧ (∀ other, other ≠ id → n.store.stack other = m.store.stack other) ∧
      n.heap = m.heap ∧ n.views = m.views ∧ n.registers = m.registers ∧
      n.stackNames = m.stackNames) ∧
    ∀ name t into k w good item rest cause, (t.eval m).result = .ok (k, w) →
      w.items k.heap = .ok (good ++ item :: rest) →
      (∀ v ∈ good, ∃ data, v.newBytes k.heap = .ok data) → item.newBytes k.heap = .error cause →
      (m.step ⟨.seed name t, into⟩).1 = m ∧
        (m.step ⟨.seed name t, into⟩).2.result = .error (.misuse cause) := by
  have hm := sound_run program
  refine ⟨fun h s op fault hf => StackOp.run_spares hf, fun s fault hf => ?_, ?_, ?_⟩
  · obtain hsame | ⟨name, minimal, id, e, rest, hs, hpops, _⟩ := step_of_fault hf
    · exact .inl hsame
    · exact .inr ⟨name, minimal, id, e, rest, hs, hpops⟩
  · intro name minimal id e rest fault into hpops
    obtain ⟨hmachine, hanswer⟩ := hpops.step into
    refine ⟨hanswer, ?_⟩
    rw [hmachine]
    refine ⟨?_, fun other hne => ?_, rfl, rfl, rfl, rfl⟩
    · exact Store.stack_setStack_self (hm.has _ (.named hpops.named)) _
    · exact Store.stack_setStack_of_ne _ hne _
  · intro name t into k w good item rest cause ht hitems hgood hitem
    exact step_seed_error ht hitems hgood hitem

/-- Five bytes are taken off by popping them as a number, but stay where a place beside them is
asked for; a list that ends in no byte string seeds nothing. -/
theorem failure_on_five_bytes :
    let m := start.run [⟨.onStack "s" (.pushNumber (.integer 7)), none⟩,
      ⟨.onStack "s" (.pushBytes (.bytes [1, 2, 3, 4, 5])), none⟩]
    (∃ fault, (m.step ⟨.onStack "s" (.popNumber false), none⟩).2.result = .error fault) ∧
    ((m.step ⟨.onStack "s" (.popNumber false), none⟩).1.store.stack ⟨0⟩).height = 1 ∧
    (m.step ⟨.onStack "s" (.top (.integer 0)), none⟩).1 = m ∧
    (m.step ⟨.seed "t" (.list [.bytes [1], .nothing]), none⟩).1 = m := by
  intro m
  obtain ⟨_, hstep, hpop, hseed⟩ := failure_leaves_state
    [⟨.onStack "s" (.pushNumber (.integer 7)), none⟩,
      ⟨.onStack "s" (.pushBytes (.bytes [1, 2, 3, 4, 5])), none⟩]
  have hpops : m.PopsUnreadable "s" false ⟨0⟩ ⟨1⟩ [⟨0⟩]
      (Fault.numberTooLong 5 (.integer 4)).raised := ⟨rfl, rfl, rfl⟩
  obtain ⟨hanswer, hstack, _⟩ := hpop _ _ _ _ _ _ none hpops
  refine ⟨⟨_, hanswer⟩, ?_, ?_, ?_⟩
  · rw [hstack]
    rfl
  · have hrefused : Family.contract.Stops
        (m.step ⟨.onStack "s" (.top (.integer 0)), none⟩).2.result := by decide +kernel
    obtain ⟨fault, hfault, _⟩ := hrefused
    obtain hsame | ⟨name, minimal, id, e, rest, hs, _⟩ := hstep _ _ hfault
    · exact hsame
    · cases hs
  · have hgood : ∀ v ∈ [Value.bytes [1]], ∃ data, v.newBytes m.heap = .ok data := by
      intro v hv
      rw [List.mem_singleton.mp hv]
      exact ⟨[1], rfl⟩
    exact (hseed "t" _ none m _ [.bytes [1]] .nothing [] .wrongKind rfl rfl hgood rfl).1

end Machine

end ScriptStack
