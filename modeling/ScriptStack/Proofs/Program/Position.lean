import ScriptStack.Proofs.Program.Failure
import ScriptStack.Proofs.Program.Request
import ScriptStack.Proofs.Program.Snapshot
import ScriptStack.Proofs.Stack.Position

/-! The places of the stacks of a program: all that looks at a place, from the bottom or from the top,
finds the same entry, and outside nothing is found. -/
namespace ScriptStack

theorem Term.eval_peek_integer {m : Machine} {name : String} {id : StackId} {o : Int} {e : Entry}
    (hid : m.stackNames.get? name = some id)
    (he : ((m.store.stack id).top (.ofInt o)).result = .ok e) :
    ((Term.peek (.integer o) name).eval m).result = .ok (m, .entry e) := by
  rw [← Value.position_integer m.store] at he
  have hfound : (m.stackId name).result = .ok id := Machine.result_known_eq_ok.mpr hid
  refine Attempt.result_bind_eq_ok.mpr ⟨id, hfound, ?_⟩
  refine Attempt.result_bind_eq_ok.mpr ⟨(m, .integer o), rfl, ?_⟩
  exact Attempt.result_bind_eq_ok.mpr ⟨e, he, rfl⟩

namespace Machine

variable {m : Machine} {name : String} {id : StackId} {e : Entry}

/-- What there is at a place, counted from the bottom: all that looks at it, or at as far from the top,
finds this entry, or its bytes, or what a dictionary has for it; and it is this one that is removed
there. -/
structure Finds (m : Machine) (name : String) (id : StackId) (i : Nat) (e : Entry) : Prop where
  slot : (m.sequences id)[i]? = some e
  bytesAt : ∀ into, (m.step ⟨.onStack name (.bytesAt (.integer i)), into⟩).2.result =
    .ok (.bytes (e.toBytes m.heap))
  topBytes : ∀ into, (m.step ⟨.onStack name (.topBytes (.integer (i - (m.sequences id).length))),
    into⟩).2.result = .ok (.bytes (e.toBytes m.heap))
  top : ∀ into, (m.step ⟨.onStack name (.top (.integer (i - (m.sequences id).length))),
    into⟩).2.result = .ok (.entry e)
  entryBytes : ∀ into, (m.step ⟨.entryBytes (.peek (.integer (i - (m.sequences id).length)) name),
    into⟩).2.result = .ok (.bytes (e.toBytes m.heap))
  item : ∀ view into index, index = (i : Int) ∨ index = i - (m.sequences id).length →
    ((m.step ⟨.takeView name view, into⟩).1.step
      ⟨.readView view (.item (.integer index)), into⟩).2.result = .ok (.bytes (e.toBytes m.heap))
  listed : ∀ view into, ∃ items, ((m.step ⟨.takeView name view, into⟩).1.step
      ⟨.readView view .items, into⟩).2.result = .ok (.list items) ∧
    items[i]? = some (.bytes (e.toBytes m.heap))
  reversed : ∀ view into, ∃ items, ((m.step ⟨.takeView name view, into⟩).1.step
      ⟨.readView view .itemsReversed, into⟩).2.result = .ok (.list items) ∧
    items[(m.sequences id).length - 1 - i]? = some (.bytes (e.toBytes m.heap))
  table : ∀ into, (m.step ⟨.onStack name .table, into⟩).2.result =
    .ok (Answer.table ((m.store.stack id).table m.heap)).value
  noted : ∃ item, ((m.store.stack id).dictionary m.heap).lookup i = some item ∧
    (e.content m.heap).Notes item
  removed : ∀ into, (m.step ⟨.onStack name (.removeAt (.integer i)), into⟩).1.sequences =
    Function.update m.sequences id ((m.sequences id).eraseIdx i)

theorem result_onStack_at (hid : m.stackNames.get? name = some id) {call : StackCall} {i : Int}
    (op : Position → StackOp) (hcall : call.resolve m = StackCall.atPosition m (.integer i) op)
    (into : Option String) : (m.step ⟨.onStack name call, into⟩).2.result =
      ((op (.ofInt i)).run m.heap (m.store.stack id)).attempt.result.map Answer.value := by
  rw [StackCall.resolve_at_integer] at hcall
  exact result_onStack hid (congrArg Attempt.result hcall) into

theorem presents_taken (hm : m.Sound) (hid : m.stackNames.get? name = some id) (view : String)
    (into : Option String) : (m.step ⟨.takeView name view, into⟩).1.Presents view
      ((m.sequences id).map (Entry.toBytes m.heap)) := by
  have hsound := (step_continues hm ⟨.takeView name view, into⟩).sound
  rw [(step_takeView hid view into).1] at hsound ⊢
  exact hsound.presents (Table.get?_set_self _ _ _)

theorem Sound.finds (hm : m.Sound) (hid : m.stackNames.get? name = some id) {i : Nat}
    (hi : (m.sequences id)[i]? = some e) : m.Finds name id i e := by
  have hheight : (m.sequences id).length = (m.store.stack id).height := Stack.length_slots _
  have hlt : i < (m.sequences id).length := (List.getElem?_eq_some_iff.mp hi).1
  have hat := Stack.entryAt_of_slot hi
  have htop := Stack.top_of_slot hi
  rw [← hheight] at htop
  have hshown : ((m.sequences id).map (Entry.toBytes m.heap))[i]? = some (e.toBytes m.heap) := by
    rw [List.getElem?_map, hi]
    rfl
  have hview := presents_taken hm hid
  constructor
  case slot => exact hi
  case bytesAt =>
    intro into
    rw [result_onStack_at hid .bytesAt rfl, StackOp.result_bytesAt (congrArg Attempt.result hat)]
    rfl
  case topBytes =>
    intro into
    rw [result_onStack_at hid .topBytes rfl, StackOp.result_topBytes htop]
    rfl
  case top =>
    intro into
    rw [result_onStack_at hid .top rfl, StackOp.result_top htop]
    rfl
  case entryBytes =>
    intro into
    have hask : (m.ask (.peek (.integer (i - (m.sequences id).length)) name)
        (fun m v => v.asBytes m.heap) .bytes).result = .ok (m, .bytes (e.toBytes m.heap)) :=
      Attempt.result_bind_eq_ok.mpr ⟨_, Term.eval_peek_integer hid htop, rfl⟩
    rw [result_step]
    exact (settle_ok hask).2
  case item =>
    intro view into index hindex
    rw [← List.length_map (Entry.toBytes m.heap)] at hindex
    exact (hview view into).item _ _ _ index i _ into rfl rfl hshown hindex
  case listed =>
    intro view into
    refine ⟨_, (hview view into).items into, ?_⟩
    rw [List.getElem?_map, hshown]
    rfl
  case reversed =>
    intro view into
    have hplace : (m.sequences id).length - 1 - ((m.sequences id).length - 1 - i) = i := by omega
    refine ⟨_, (hview view into).reversed into, ?_⟩
    rw [List.getElem?_map, List.getElem?_reverse (by simp; omega), List.length_map, hplace, hshown]
    rfl
  case table =>
    intro into
    rw [result_onStack hid rfl]
    rfl
  case noted => exact ⟨_, Stack.lookup_of_slot hi, Content.notes_item _⟩
  case removed =>
    intro into
    have hcall : ((StackCall.removeAt (.integer i)).resolve m).result =
        .ok (m, .removeAt (.ofInt i)) := congrArg Attempt.result (StackCall.resolve_at_integer m i _)
    rw [sequences_step hm, advance, hid]
    simp only [hcall, StackOp.onSequence, Position.ofInt]
    rw [if_pos (by omega)]
    rfl

theorem result_at_outside (hid : m.stackNames.get? name = some id) {i : Int}
    (hi : ¬ (0 ≤ i ∧ i < (m.sequences id).length)) {call : StackCall}
    (hcall : call = .bytesAt (.integer i) ∨ call = .removeAt (.integer i)) (into : Option String) :
    let answer := (m.step ⟨.onStack name call, into⟩).2.result
    if Decimal.isWritable i then Family.contract.Stops answer
    else answer = .error (.misuse .badValue) := by
  intro answer
  have hbroken : (Request.place (.ofInt i) (m.store.stack id).height).broken := by
    rw [← Stack.length_slots]
    exact ⟨i, rfl, hi⟩
  have hexplains : (Request.place (.ofInt i) (m.store.stack id).height).Explains answer := by
    obtain rfl | rfl := hcall
    · have hrun : answer = _ := result_onStack_at hid .bytesAt rfl into
      have htyped : (StackOp.bytesAt (.ofInt i)).WellTyped := rfl
      rw [hrun]
      exact (StackOp.request_explains htyped _ _).map _
    · have hrun : answer = _ := result_onStack_at hid .removeAt rfl into
      have htyped : (StackOp.removeAt (.ofInt i)).WellTyped := rfl
      rw [hrun]
      exact (StackOp.request_explains htyped _ _).map _
  cases hw : Decimal.isWritable i with
  | true =>
    refine hexplains.contract.mpr ⟨hbroken, fun hunwritten => ?_⟩
    cases hw.symm.trans (Request.place_unwritten_iff.mp hunwritten).2
  | false => exact hexplains.badValue.mpr (Request.place_unwritten_iff.mpr ⟨hbroken, hw⟩)

theorem top_answers (hid : m.stackNames.get? name = some id) (o : Int) (into : Option String) :
    let height : Int := (m.sequences id).length
    let answer := (m.step ⟨.onStack name (.top (.integer o)), into⟩).2.result
    ((∃ v, answer = .ok v) ↔ -height ≤ o ∧ o ≤ -1) ∧
      (Family.underflow.Stops answer ↔ o < -height ∧ Decimal.isWritable o = true) ∧
      (Family.contract.Stops answer ↔ 0 ≤ o ∧ Decimal.isWritable o = true) ∧
      (answer = .error (.misuse .badValue) ↔
        ¬ (-height ≤ o ∧ o ≤ -1) ∧ Decimal.isWritable o = false) := by
  intro height answer
  have hheight : height = (m.store.stack id).height := congrArg _ (Stack.length_slots _)
  have htyped : (StackOp.top (.ofInt o)).WellTyped := rfl
  have hrun : answer = ((StackOp.top (.ofInt o)).run m.heap
      (m.store.stack id)).attempt.result.map Answer.value := result_onStack_at hid .top rfl into
  have hexplains : (Request.peek (.ofInt o) (m.store.stack id).height).Explains answer := by
    rw [hrun]
    exact (StackOp.request_explains htyped m.heap (m.store.stack id)).map _
  rw [hheight]
  refine ⟨?_, ?_, ?_, hexplains.badValue.trans Request.peek_unwritten_iff⟩
  · rw [hrun, ← StackOp.result_top_isOk_iff (h := m.heap)]
    cases ((StackOp.top (.ofInt o)).run m.heap (m.store.stack id)).attempt.result <;>
      simp [Except.map]
  · refine hexplains.underflow.trans ((and_congr_left' Request.peek_deep_iff).trans ?_)
    rw [Request.peek_unwritten_iff]
    refine and_congr_right fun hlow => ?_
    have hout : ¬ (-((m.store.stack id).height : Int) ≤ o ∧ o ≤ -1) := by omega
    simp [hout]
  · rw [hexplains.contract, Request.peek_broken_iff, Request.peek_unwritten_iff]
    refine and_congr_right fun hhigh => ?_
    have hout : ¬ (-((m.store.stack id).height : Int) ≤ o ∧ o ≤ -1) := by omega
    simp [hout]

theorem step_at_of_fault {i : Int} {call : StackCall}
    (hcall : call = .bytesAt (.integer i) ∨ call = .removeAt (.integer i)) {into : Option String}
    {fault : Fault} (hf : (m.step ⟨.onStack name call, into⟩).2.result = .error fault) :
    (m.step ⟨.onStack name call, into⟩).1 = m := by
  obtain hsame | ⟨_, _, _, _, _, hs, _⟩ := step_of_fault hf
  · exact hsame
  · obtain rfl | rfl := hcall <;> cases hs

/-- All ways to look at a place agree. At every place that there is, counted from the bottom or from
the top, they find one entry; a place counted from the bottom is refused exactly outside the stack, one
counted from the top where it is not below the top, and where it is below the bottom. A place whose
number cannot be written is refused as well, but as a bad value. -/
theorem positions_agree (program : List Step) (name : String) (id : StackId)
    (hid : (start.run program).stackNames.get? name = some id) :
    let m := start.run program
    let height : Int := (m.sequences id).length
    let does := fun call into => m.step ⟨.onStack name call, into⟩
    (∀ i : Int, 0 ≤ i → i < height → ∃ e, m.Finds name id i.toNat e) ∧
    (∀ (i : Int) into call, ¬ (0 ≤ i ∧ i < height) →
      call = .bytesAt (.integer i) ∨ call = .removeAt (.integer i) →
      (if Decimal.isWritable i then Family.contract.Stops (does call into).2.result
        else (does call into).2.result = .error (.misuse .badValue)) ∧
      (does call into).1 = m) ∧
    ∀ (o : Int) into, let answer := (does (.top (.integer o)) into).2.result
      ((∃ v, answer = .ok v) ↔ -height ≤ o ∧ o ≤ -1) ∧
      (Family.underflow.Stops answer ↔ o < -height ∧ Decimal.isWritable o = true) ∧
      (Family.contract.Stops answer ↔ 0 ≤ o ∧ Decimal.isWritable o = true) ∧
      (answer = .error (.misuse .badValue) ↔
        ¬ (-height ≤ o ∧ o ≤ -1) ∧ Decimal.isWritable o = false) := by
  intro m height does
  have hm : m.Sound := sound_run program
  refine ⟨fun i hlow hhigh => ?_, fun i into call hi hcall => ?_, fun o into => ?_⟩
  · have hlt : i.toNat < (m.sequences id).length := by omega
    exact ⟨_, hm.finds hid (List.getElem?_eq_getElem hlt)⟩
  · have hrefused := result_at_outside hid hi hcall into
    have hfault : ∃ fault, (does call into).2.result = .error fault := by
      simp only at hrefused
      split at hrefused
      · obtain ⟨fault, hfault, _⟩ := hrefused
        exact ⟨fault, hfault⟩
      · exact ⟨_, hrefused⟩
    obtain ⟨fault, hfault⟩ := hfault
    exact ⟨hrefused, step_at_of_fault hcall hfault⟩
  · exact top_answers hid o into

/-- On a number and two bytes the place 1 is the top, also for a view; the places 2 and -1 are refused,
and so is the offset -3. -/
theorem positions_on_two :
    let m := start.run [⟨.onStack "s" (.pushNumber (.integer (-5))), none⟩,
      ⟨.onStack "s" (.pushBytes (.bytes [7, 9])), none⟩]
    let ends := fun call => (m.step ⟨.onStack "s" call, none⟩).2.result
    m.Finds "s" ⟨0⟩ 0 ⟨0⟩ ∧ ends (.topBytes (.integer (-1))) = .ok (.bytes [7, 9]) ∧
      Family.contract.Stops (ends (.bytesAt (.integer 2))) ∧
      Family.contract.Stops (ends (.removeAt (.integer (-1)))) ∧
      Family.underflow.Stops (ends (.top (.integer (-3)))) := by
  intro m ends
  have hid : m.stackNames.get? "s" = some ⟨0⟩ := rfl
  obtain ⟨hfinds, houtside, htop⟩ := positions_agree _ "s" ⟨0⟩ hid
  obtain ⟨first, hfirst⟩ := hfinds 0 (by decide) (by decide)
  obtain ⟨second, hsecond⟩ := hfinds 1 (by decide) (by decide)
  have hnumber : first = ⟨0⟩ := Option.some.inj (hfirst.slot.symm.trans rfl)
  have hbytes : second = ⟨1⟩ := Option.some.inj (hsecond.slot.symm.trans rfl)
  subst hnumber hbytes
  have hwrite : ∀ i : Int, i.natAbs < 10 ^ 20 → Decimal.isWritable i = true :=
    fun _ => Decimal.isWritable_of_lt
  have hread := (houtside 2 none _ (by decide) (.inl rfl)).1
  have hremove := (houtside (-1) none _ (by decide) (.inr rfl)).1
  rw [if_pos (hwrite _ (by decide))] at hread hremove
  exact ⟨hfirst, hsecond.topBytes none, hread, hremove,
    (htop (-3) none).2.1.mpr ⟨by decide, hwrite _ (by decide)⟩⟩

/-- A place that cannot be written is outside of the empty stack, from both ends, but it is refused
neither for that nor as too deep. -/
theorem misplaced_overlong_index :
    let ends := fun call => (start.step ⟨.onStack "s" call, none⟩).2.result
    let far : Int := Decimal.overlong
    (¬ far < 0 ∧ ¬ Family.contract.Stops (ends (.bytesAt (.integer far))) ∧
      ¬ Family.contract.Stops (ends (.removeAt (.integer far))) ∧
      ¬ Family.contract.Stops (ends (.top (.integer far)))) ∧
    -far < 0 ∧ ¬ Family.underflow.Stops (ends (.top (.integer (-far)))) := by
  intro ends far
  have hlarge : 0 < far := by
    have hpos := Decimal.le_overlong
    omega
  have hid : start.stackNames.get? "s" = some ⟨0⟩ := rfl
  have hheight : ((start.sequences ⟨0⟩).length : Int) = 0 := rfl
  have hat : ∀ call, call = .bytesAt (.integer far) ∨ call = .removeAt (.integer far) →
      ends call = .error (.misuse .badValue) := by
    intro call hcall
    have hanswer := result_at_outside hid (by omega) hcall none
    rwa [Decimal.isWritable_overlong, if_neg Bool.false_ne_true] at hanswer
  have htop : ∀ o : Int, o = far ∨ o = -far → ends (.top (.integer o)) = .error (.misuse .badValue) := by
    intro o ho
    have hunwritten : Decimal.isWritable o = false := by
      obtain rfl | rfl := ho
      · exact Decimal.isWritable_overlong
      · rw [Decimal.isWritable_neg, Decimal.isWritable_overlong]
    exact (top_answers hid o none).2.2.2.mpr ⟨by omega, hunwritten⟩
  have hnone : ∀ family : Family, ¬ family.Stops (.error (.misuse .badValue) : Except Fault Value) :=
    fun family => family.not_stops_misuse .badValue
  rw [hat _ (.inl rfl), hat _ (.inr rfl), htop _ (.inl rfl), htop _ (.inr rfl)]
  exact ⟨⟨by omega, hnone _, hnone _, hnone _⟩, by omega, hnone _⟩

end Machine

end ScriptStack
