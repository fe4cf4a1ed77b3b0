import ScriptStack.Proofs.Program.Sequence
import ScriptStack.Proofs.Stack.Consumption

/-! Consuming on the stacks of a program: a call that takes the top entry off answers as the peek does,
and several entries go at once as they do one by one. -/
namespace ScriptStack

namespace Machine

variable {m : Machine} {name : String} {id : StackId}

def takeOff (m : Machine) (id : StackId) (n : Nat) : Machine :=
  m.setStack id ((m.store.stack id).drop n)

theorem takeOff_zero (m : Machine) (id : StackId) : m.takeOff id 0 = m := by
  rw [takeOff, Stack.drop_zero, Machine.setStack, Store.setStack_stack]

theorem takeOff_takeOff (hlt : id.index < m.store.stackCells.length) (a b : Nat) :
    (m.takeOff id a).takeOff id b = m.takeOff id (a + b) := by
  have hstack : (m.takeOff id a).store.stack id = (m.store.stack id).drop a :=
    Store.stack_setStack_self hlt _
  rw [takeOff, hstack, Stack.drop_drop]
  simp [takeOff, Machine.setStack, Store.setStack]

theorem sequences_takeOff (hlt : id.index < m.store.stackCells.length) (n : Nat) :
    (m.takeOff id n).sequences =
      Function.update m.sequences id ((m.sequences id).take ((m.sequences id).length - n)) := by
  rw [takeOff, sequences_setStack hlt, Stack.slots_drop, sequences, Stack.length_slots]

theorem runStackOp_of_quiet (id : StackId) {op : StackOp} (hop : op.Quiet) :
    let o := op.run m.heap (m.store.stack id)
    m.runStackOp id (.done (m, op)) =
      (m.setStack id o.stack, ⟨o.attempt.log, o.attempt.result.map Answer.value⟩) := by
  intro o
  have hheap : m.withHeap o.heap = m := congrArg m.withHeap (hop.shrinks _ _).1
  refine Prod.ext ?_ (attempt_after m _ _)
  cases hr : o.attempt.result with
  | ok answer => exact (runStackOp_ok rfl rfl hr).1.trans (congrArg (setStack · id o.stack) hheap)
  | error fault => exact (runStackOp_error (.refl m) rfl rfl hr).1

/-- A call whose arguments make nothing, and that pushes nothing, does to the stack what its operation
does, and a variable may take the answer. -/
theorem step_of_quiet (call : StackCall) (op : StackOp) (hid : m.stackNames.get? name = some id)
    (hcall : call.resolve m = .done (m, op)) (hop : op.Quiet) (into : Option String) :
    let o := op.run m.heap (m.store.stack id)
    m.step ⟨.onStack name call, into⟩ =
      keep into (m.setStack id o.stack, ⟨o.attempt.log, o.attempt.result.map Answer.value⟩) := by
  intro o
  rw [step, runInstruction, runOnStack_eq hid, hcall, runStackOp_of_quiet id hop]
  rfl

theorem keep_takeOff (into : Option String) (n : Nat) (x : Attempt Value) :
    keep into (m.takeOff id n, x) =
      ((keep into (m, x)).1.takeOff id n, (keep into (m, x)).2) := by
  obtain ⟨log, result⟩ := x
  cases into <;> cases result <;> rfl

/-- One call does what another does, and takes the top entry off besides; the other changes nothing, if
no variable takes its answer. -/
structure Consumes (m : Machine) (name : String) (id : StackId) (consuming peeking : StackCall) :
    Prop where
  peek : (m.step ⟨.onStack name peeking, none⟩).1 = m
  consume : ∀ into, m.step ⟨.onStack name consuming, into⟩ =
    ((m.step ⟨.onStack name peeking, into⟩).1.takeOff id 1,
      (m.step ⟨.onStack name peeking, into⟩).2)

theorem consumes_of_dropTop {consuming peeking : StackCall} {take look : StackOp} {x : Attempt Answer}
    (hid : m.stackNames.get? name = some id)
    (htake : consuming.resolve m = .done (m, take)) (hlook : peeking.resolve m = .done (m, look))
    (hquiet : take.Quiet ∧ look.Quiet)
    (hrun : look.run m.heap (m.store.stack id) = ⟨m.heap, m.store.stack id, x⟩)
    (hsame : take.run m.heap (m.store.stack id) = (look.run m.heap (m.store.stack id)).dropTop) :
    m.Consumes name id consuming peeking := by
  have hpeek := step_of_quiet peeking look hid hlook hquiet.2
  have hconsume := step_of_quiet consuming take hid htake hquiet.1
  rw [hsame, hrun] at hconsume
  simp only [hrun, Machine.setStack, Store.setStack_stack] at hpeek
  refine ⟨by rw [hpeek]; rfl, fun into => ?_⟩
  rw [hconsume, hpeek]
  exact keep_takeOff into 1 _

theorem consumes_popNumber {e : Entry} {rest : List Entry} (hid : m.stackNames.get? name = some id)
    (hs : (m.store.stack id).entries = e :: rest) (minimal : Bool) :
    m.Consumes name id (.popNumber minimal) (.topNumber (.integer (-1)) minimal) :=
  consumes_of_dropTop hid rfl (StackCall.resolve_at_integer m (-1) fun p => .topNumber p minimal)
    ⟨trivial, trivial⟩ rfl (StackOp.popNumber_eq_dropTop hs minimal)

theorem consumes_popBytes {e : Entry} {rest : List Entry} (hid : m.stackNames.get? name = some id)
    (hs : (m.store.stack id).entries = e :: rest) :
    m.Consumes name id .popBytes (.topBytes (.integer (-1))) ∧ m.Consumes name id .popBytes .last ∧
      m.Consumes name id .popBytes (.bytesAt (.integer ((m.store.stack id).height - 1))) := by
  have htop := StackOp.popBytes_eq_dropTop (h := m.heap) hs
  have hplace := htop
  rw [← StackOp.bytesAt_below_height hs] at hplace
  have hquiet : True ∧ True := ⟨trivial, trivial⟩
  refine ⟨?_, consumes_of_dropTop hid rfl rfl hquiet rfl htop, ?_⟩
  · exact consumes_of_dropTop hid rfl (StackCall.resolve_at_integer m (-1) _) hquiet rfl htop
  · exact consumes_of_dropTop hid rfl (StackCall.resolve_at_integer m _ _) hquiet rfl hplace

theorem step_pop (hid : m.stackNames.get? name = some id) :
    (m.step ⟨.onStack name .pop, none⟩).1 = m.takeOff id 1 := by
  rw [step_of_quiet .pop .pop hid rfl trivial, StackOp.pop_stack]
  rfl

theorem run_pops (hlt : id.index < m.store.stackCells.length)
    (hid : m.stackNames.get? name = some id) (n : Nat) :
    m.run (List.replicate n ⟨.onStack name .pop, none⟩) = m.takeOff id n := by
  induction n generalizing m with
  | zero => exact (takeOff_zero m id).symm
  | succ n ih =>
    have hlater : id.index < (m.takeOff id 1).store.stackCells.length :=
      Nat.lt_of_lt_of_eq hlt List.length_set.symm
    rw [List.replicate_succ, run, step_pop hid, ih hlater hid, takeOff_takeOff hlt, Nat.add_comm]

theorem step_of_refusal (call : StackCall) (op : StackOp) {fault : Fault}
    (hid : m.stackNames.get? name = some id) (hcall : call.resolve m = .done (m, op))
    (hop : op.Quiet)
    (ho : op.run m.heap (m.store.stack id) = ⟨m.heap, m.store.stack id, .fail fault⟩)
    (into : Option String) : m.step ⟨.onStack name call, into⟩ = (m, .fail fault) := by
  rw [step_of_quiet call op hid hcall hop, ho, Machine.setStack, Store.setStack_stack]
  cases into <;> rfl

theorem step_empty (hid : m.stackNames.get? name = some id) (hs : (m.store.stack id).entries = [])
    (minimal : Bool) (into : Option String) :
    (∀ call ∈ [.popBytes, .popNumber minimal], m.step ⟨.onStack name call, into⟩ =
      (m, .fail (.underflow .emptyPop (.integer 1) 0))) ∧
    ∀ call ∈ [.topBytes (.integer (-1)), .topNumber (.integer (-1)) minimal, .last],
      m.step ⟨.onStack name call, into⟩ = (m, .fail (.underflow .depth (.integer 1) 0)) := by
  have hpop := StackOp.consume_empty (h := m.heap) hs minimal
  have hpeek := StackOp.peek_empty (h := m.heap) hs minimal
  have htop : (StackCall.topBytes (.integer (-1))).resolve m = .done (m, .topBytes StackOp.topmost) :=
    StackCall.resolve_at_integer m (-1) _
  have hread : (StackCall.topNumber (.integer (-1)) minimal).resolve m =
      .done (m, .topNumber StackOp.topmost minimal) :=
    StackCall.resolve_at_integer m (-1) fun p => .topNumber p minimal
  simp only [List.forall_mem_cons] at hpop hpeek ⊢
  obtain ⟨hpopBytes, hpopNumber, _⟩ := hpop
  obtain ⟨htopBytes, htopNumber, hlast, _⟩ := hpeek
  refine ⟨⟨?_, ?_, nofun⟩, ?_, ?_, ?_, nofun⟩
  · exact step_of_refusal _ .popBytes hid rfl trivial hpopBytes into
  · exact step_of_refusal _ (.popNumber minimal) hid rfl trivial hpopNumber into
  · exact step_of_refusal _ (.topBytes StackOp.topmost) hid htop trivial htopBytes into
  · exact step_of_refusal _ (.topNumber StackOp.topmost minimal) hid hread trivial htopNumber into
  · exact step_of_refusal _ .last hid rfl trivial hlast into

theorem step_popN_of_le (hid : m.stackNames.get? name = some id) {n : Int}
    (hn : n ≤ (m.store.stack id).height) :
    (m.step ⟨.onStack name (.popN (.integer n)), none⟩).1 = m.takeOff id n.toNat := by
  rw [step_of_quiet _ (.popN (.ok (.integer n))) hid rfl trivial, StackOp.popN_of_le rfl hn]
  rfl

theorem step_popN_of_deep (hid : m.stackNames.get? name = some id) {n : Int}
    (hn : (m.store.stack id).height < n) :
    m.step ⟨.onStack name (.popN (.integer n)), none⟩ =
      (m, .raise (.underflow .depth (.integer n) (m.store.stack id).height)) :=
  step_of_refusal _ (.popN (.ok (.integer n))) hid rfl trivial (StackOp.popN_of_deep rfl hn) none

theorem step_removeAt_below_height (hid : m.stackNames.get? name = some id) :
    (m.step ⟨.onStack name (.removeAt (.integer ((m.store.stack id).height - 1))), none⟩).1 =
      m.takeOff id 1 := by
  have hcall : (StackCall.removeAt (.integer ((m.store.stack id).height - 1))).resolve m =
      .done (m, .removeAt (.ofInt ((m.store.stack id).height - 1))) :=
    StackCall.resolve_at_integer m _ _
  rw [step_of_quiet _ _ hid hcall trivial, StackOp.removeAt_below_height]
  rfl

/-- Consuming is peeking and removal. A pop answers, and logs, as the peek at the top does, from the
same state, and takes that entry off, also where it cannot be read; without an entry all of them are
short of one. So many entries go at once as one by one, or none if there are fewer. -/
theorem consuming_is_peeking_and_removal (program : List Step) (name : String) (id : StackId)
    (minimal : Bool) (hid : (start.run program).stackNames.get? name = some id) :
    let m := start.run program
    let height : Int := (m.sequences id).length
    let does := fun call into => m.step ⟨.onStack name call, into⟩
    let pops := fun n => m.run (List.replicate n ⟨.onStack name .pop, none⟩)
    (∀ below e, m.sequences id = below ++ [e] →
      m.Consumes name id (.popNumber minimal) (.topNumber (.integer (-1)) minimal) ∧
      (m.Consumes name id .popBytes (.topBytes (.integer (-1))) ∧
        m.Consumes name id .popBytes .last ∧
        m.Consumes name id .popBytes (.bytesAt (.integer (height - 1)))) ∧
      (m.takeOff id 1).sequences = Function.update m.sequences id below ∧
      (does (.popNumber minimal) none).2.result = (e.toNumber m.heap minimal).map .integer ∧
      (does .popBytes none).2.result = .ok (.bytes (e.toBytes m.heap))) ∧
    (m.sequences id = [] → ∀ into,
      (∀ call ∈ [.popBytes, .popNumber minimal],
        does call into = (m, .fail (.underflow .emptyPop (.integer 1) 0))) ∧
      ∀ call ∈ [.topBytes (.integer (-1)), .topNumber (.integer (-1)) minimal, .last],
        does call into = (m, .fail (.underflow .depth (.integer 1) 0))) ∧
    (∀ n : Int, 0 ≤ n → n ≤ height → (does (.popN (.integer n)) none).1 = pops n.toNat) ∧
    (does (.removeAt (.integer (height - 1))) none).1 = (does .pop none).1 ∧
    ∀ n : Int, height < n →
      does (.popN (.integer n)) none =
        (m, .raise (.underflow .depth (.integer n) (m.sequences id).length)) ∧
      (pops n.toNat).sequences id = [] := by
  intro m height does pops
  have hlt : id.index < m.store.stackCells.length := (sound_run program).has _ (.named hid)
  have hheight : (m.sequences id).length = (m.store.stack id).height := Stack.length_slots _
  refine ⟨fun below e hs => ?_, fun hs into => ?_, fun n hpos hn => ?_, ?_, fun n hn => ?_⟩
  · have hentries := Stack.entries_of_slots hs
    refine ⟨consumes_popNumber hid hentries minimal, ?_, ?_, ?_, ?_⟩
    · have hbytes := consumes_popBytes hid hentries
      rwa [← hheight] at hbytes
    · rw [sequences_takeOff hlt, hs]
      simp
    · rw [result_onStack hid rfl, StackOp.run, StackOp.consume_cons hentries,
        StackOp.result_read_ofExcept]
      cases e.toNumber m.heap minimal <;> rfl
    · rw [result_onStack hid rfl, StackOp.run, StackOp.consume_cons hentries,
        StackOp.result_read_ofExcept]
      rfl
  · exact step_empty hid (List.reverse_eq_nil_iff.mp hs) minimal into
  · have hle : n ≤ (m.store.stack id).height := by omega
    exact (step_popN_of_le hid hle).trans (run_pops hlt hid n.toNat).symm
  · have hremove := step_removeAt_below_height hid
    rw [← step_pop hid, ← hheight] at hremove
    exact hremove
  · have hdeep : (m.store.stack id).height < n := by omega
    have hpops : pops n.toNat = m.takeOff id n.toNat := run_pops hlt hid _
    refine ⟨?_, ?_⟩
    · rw [hheight]
      exact step_popN_of_deep hid hdeep
    · have hnone : (m.sequences id).length - n.toNat = 0 := by omega
      rw [hpops, sequences_takeOff hlt, Function.update_self, hnone, List.take_zero]

/-- Five bytes are popped as a number as they are read as one: both fail, and the pop takes them off.
Two entries go at once as one by one, and three not at all. -/
theorem consuming_five_bytes :
    let m := start.run [⟨.onStack "s" (.pushNumber (.integer 7)), none⟩,
      ⟨.onStack "s" (.pushBytes (.bytes [1, 2, 3, 4, 5])), none⟩]
    let pop : Step := ⟨.onStack "s" .pop, none⟩
    m.Consumes "s" ⟨0⟩ (.popNumber true) (.topNumber (.integer (-1)) true) ∧
      (m.step ⟨.onStack "s" (.popNumber true), none⟩).2.result =
        .error (.numberTooLong 5 (.integer 4)) ∧
      (m.step ⟨.onStack "s" (.popN (.integer 2)), none⟩).1 = m.run [pop, pop] ∧
      (m.step ⟨.onStack "s" (.popN (.integer 3)), none⟩).1 = m := by
  intro m pop
  have hid : m.stackNames.get? "s" = some ⟨0⟩ := rfl
  obtain ⟨hconsumes, _, hpops, _, hdeep⟩ := consuming_is_peeking_and_removal _ "s" ⟨0⟩ true hid
  obtain ⟨hnumber, _, _, hanswer, _⟩ := hconsumes [⟨0⟩] ⟨1⟩ rfl
  have hkept := congrArg Prod.fst (hdeep 3 (by decide)).1
  have hlong : (Fault.numberTooLong 5 (.integer 4)).raised = .numberTooLong 5 (.integer 4) := by
    rw [Fault.raised_numberTooLong, if_pos (Decimal.isWritable_of_lt (by decide))]
  have hread : (Entry.mk 1).toNumber m.heap true = .error (.numberTooLong 5 (.integer 4)) :=
    congrArg Except.error hlong
  rw [hread] at hanswer
  exact ⟨hnumber, hanswer, hpops 2 (by decide) (by decide), hkept⟩

end Machine

end ScriptStack
