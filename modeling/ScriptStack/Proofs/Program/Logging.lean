import ScriptStack.Proofs.Program.Success
import ScriptStack.Proofs.Stack.Logging

/-! What programs log: an error for each call that ends in a violation of the contract and for no
other, and besides that one record for each stack that is seeded. -/
namespace ScriptStack

namespace Family

variable {α β : Type} {family : Family}

theorem not_stops_bind {x : Except Fault α} {f : α → Except Fault β} (hx : ¬ family.Stops x)
    (hf : ∀ a, ¬ family.Stops (f a)) : ¬ family.Stops (x >>= f) := by
  cases x with
  | ok a => exact hf a
  | error fault => exact fun h => hx (stops_error.mpr (stops_error.mp h))

theorem not_contract_lift (given : Except Misuse α) : ¬ contract.Stops (Misuse.lift given) := by
  cases given with
  | ok a => exact not_stops_ok
  | error cause => exact fun h => nomatch stops_error.mp h

end Family

open Family

theorem ScriptNumber.not_contract_relate (r : Relation) (n : ScriptNumber) (x : Comparand) :
    ¬ contract.Stops (n.relate r x) := by
  have hvalue : ¬ contract.Stops x.value := by
    cases x with
    | integer v => exact not_stops_ok
    | encoded data => exact Number.not_contract_read _ _ _
    | other kind => exact fun h => nomatch stops_error.mp h
  unfold relate
  split
  · exact not_stops_ok
  · exact not_stops_ok
  · exact mt stops_map.mp hvalue

namespace Value

theorem not_contract_newNumber (v : Value) : ¬ contract.Stops v.newNumber := by
  cases v with
  | integer v => exact not_stops_ok
  | _ => exact fun h => nomatch stops_error.mp h

theorem not_contract_samePlain (σ : Store) (a b : Value) : ¬ contract.Stops (samePlain σ a b) := by
  unfold samePlain
  split
  · exact ScriptNumber.not_contract_relate _ _ _
  · exact ScriptNumber.not_contract_relate _ _ _
  · exact not_stops_ok
  · exact not_stops_ok
  · exact not_stops_ok
  · exact not_stops_ok
  · split <;> exact not_stops_ok

theorem not_contract_same (σ : Store) (a b : Value) : ¬ contract.Stops (same σ a b) := by
  refine (same.mutual_induct (fun a b => ¬ contract.Stops (same σ a b))
    (fun xs ys => ¬ contract.Stops (sameItems σ xs ys)) ?_ ?_ ?_ ?_ ?_ ?_).1 a b
  · intro xs ys hlength ih
    rwa [same, if_pos hlength]
  · intro xs ys hlength
    rw [same, if_neg hlength]
    exact not_stops_ok
  · intro a b hlists
    rw [same.eq_2 σ a b hlists]
    exact not_contract_samePlain σ a b
  · intro x xs y ys hxy ih
    rwa [sameItems, if_pos hxy]
  · intro x xs y ys hxy ihead ih
    rw [sameItems, if_neg hxy]
    refine not_stops_bind ihead fun equal => ?_
    split
    · exact ih
    · exact not_stops_ok
  · intro xs ys hcons
    rw [sameItems.eq_2 σ xs ys hcons]
    exact not_stops_ok

theorem not_contract_isKept (σ : Store) (k : Key) (v : Value) (kept : List (Key × Value)) :
    ¬ contract.Stops (isKept σ k v kept) := by
  induction kept with
  | nil => exact not_stops_ok
  | cons row rest ih =>
    rw [isKept]
    split
    · split
      · exact not_stops_ok
      · refine not_stops_bind (not_contract_same σ row.2 v) fun equal => ?_
        split
        · exact not_stops_ok
        · exact ih
    · exact ih

theorem not_contract_keptValues (σ : Store) (kept : List (Key × Value)) (items : List Value) :
    ¬ contract.Stops (keptValues σ kept items) := by
  induction items generalizing kept with
  | nil => exact not_stops_ok
  | cons v rest ih =>
    rw [keptValues]
    refine not_stops_bind (not_contract_lift _) fun k => ?_
    refine not_stops_bind (not_contract_isKept σ k v kept) fun found => ?_
    split
    · exact ih kept
    · exact ih _

theorem not_contract_setSize (σ : Store) (items : List Value) : ¬ contract.Stops (setSize σ items) :=
  mt stops_map.mp (not_contract_keptValues σ [] items)

end Value

open Attempt

theorem Machine.accounts_known {α : Type} (found : Option α) : (known found).Accounts := by
  cases found with
  | none => exact accounts_misuse _
  | some a => exact accounts_done a

namespace Term

open Machine

theorem accounts_newNumberEntry (m : Machine) (v : Value) : (newNumberEntry m v).Accounts := by
  unfold newNumberEntry
  split
  · exact accounts_done _
  · exact accounts_fail nofun

theorem accounts_wrap (m : Machine) (v : Value) : (wrap m v).Accounts := by
  unfold wrap
  split
  · exact accounts_done _
  · exact accounts_fail nofun

mutual

theorem accounts_eval (m : Machine) : (t : Term) → (eval m t).Accounts
  | malformed cause => accounts_misuse cause
  | nothing => accounts_done _
  | flag _ => accounts_done _
  | integer _ => accounts_done _
  | text _ => accounts_done _
  | bytes _ => accounts_done _
  | memory _ => accounts_done _
  | real _ => accounts_done _
  | byteArray _ => accounts_done _
  | list items => (accounts_evalAll m items).bind fun _ => accounts_done _
  | scriptNumber value => (accounts_eval m value).bind fun (_, v) =>
    (accounts_ofExcept v.not_contract_newNumber).bind fun _ => accounts_done _
  | numberEntry value => (accounts_eval m value).bind fun (k, v) => accounts_newNumberEntry k v
  | bytesEntry contents => (accounts_eval m contents).bind fun _ =>
    (accounts_ofGiven _).bind fun _ => accounts_done _
  | peek offset _ => (accounts_known _).bind fun id => (accounts_eval m offset).bind fun (k, _) =>
    ((k.store.stack id).accounts_top _).bind fun _ => accounts_done _
  | register _ => (accounts_known _).bind fun _ => accounts_done _
  | bufferOf entry => (accounts_eval m entry).bind fun _ =>
    (accounts_ofGiven _).bind fun _ => accounts_done _
  | stack _ => (accounts_known _).bind fun _ => accounts_done _

theorem accounts_evalAll (m : Machine) : (ts : List Term) → (evalAll m ts).Accounts
  | [] => accounts_done _
  | t :: rest => (accounts_eval m t).bind fun (k, _) =>
    (accounts_evalAll k rest).bind fun _ => accounts_done _

end

end Term

theorem StackCall.accounts_resolve (m : Machine) (call : StackCall) :
    (call.resolve m).Accounts := by
  cases call with
  | height | isEmpty | hasEntries | last | pop | popBytes | popNumber | commit | display | json
  | table => exact accounts_done _
  | top | topBytes | topNumber | bytesAt | needAtLeast | push | pushNumber | pushBytes | popN
  | removeAt => exact (Term.accounts_eval m _).bind fun _ => accounts_done _

theorem EditCall.accounts_resolve (m : Machine) (call : EditCall) : (call.resolve m).Accounts := by
  cases call with
  | append | pop | extend | assign => exact (Term.accounts_eval m _).bind fun _ => accounts_done _
  | set | insert | delete =>
    exact (Term.accounts_eval m _).bind fun (k, _) =>
      (Term.accounts_eval k _).bind fun _ => accounts_done _
  | clear => exact accounts_done _

namespace Machine

variable {m : Machine}

theorem accounts_after {α : Type} {given : Attempt (Machine × α)}
    {act : Machine → α → Machine × Attempt Value} (hgiven : given.Accounts)
    (hact : ∀ k a, (act k a).2.Accounts) : (m.after given act).2.Accounts := by
  rw [attempt_after]
  exact hgiven.bind fun y => hact y.1 y.2

theorem accounts_settle {x : Attempt (Machine × Value)} (hx : x.Accounts) :
    (m.settle x).2.Accounts :=
  accounts_after hx fun _ _ => accounts_done _

theorem accounts_withBuffer {α : Type} {t : Term}
    {f : Machine → BufferId → Attempt (Machine × α)} (hf : ∀ k b, (f k b).Accounts) :
    (m.withBuffer t f).Accounts :=
  (Term.accounts_eval m t).bind fun (k, _) => (accounts_ofGiven _).bind fun b => hf k b

theorem accounts_ask {α : Type} {t : Term} {question : Machine → Value → Except Misuse α}
    {answer : α → Value} : (m.ask t question answer).Accounts :=
  (Term.accounts_eval m t).bind fun _ => (accounts_ofGiven _).bind fun _ => accounts_done _

theorem accounts_readView {name : String} {query : ViewQuery} :
    (m.readView name query).Accounts := by
  refine (accounts_known _).bind fun view => ?_
  cases query with
  | items | itemsReversed | size => exact accounts_done _
  | item index =>
    refine (Term.accounts_eval m index).bind fun (k, v) => (accounts_ofGiven _).bind fun i => ?_
    split
    · exact accounts_done _
    · exact accounts_misuse _

theorem accounts_runOp (m : Machine) (id : StackId) (op : StackOp) : (m.runOp id op).2.Accounts :=
  (op.accounts_run m.heap (m.store.stack id)).map _

theorem accounts_commitValue (m : Machine) (v : Value) : (m.commitValue v).2.Accounts := by
  unfold commitValue
  split
  · exact (Content.accounts_commit _).map _
  · exact accounts_runOp m _ _
  · exact accounts_misuse _

theorem accounts_editBuffer {target : Term} {call : EditCall} :
    (m.editBuffer target call).2.Accounts := by
  refine accounts_after (accounts_withBuffer fun k b =>
    (call.accounts_resolve k).bind fun _ => accounts_done _) fun k y => ?_
  simp only [applyEdit]
  split
  · exact accounts_done _
  · exact accounts_misuse _

theorem accounts_runInstruction {i : Instruction} (hi : ∀ stack buffers, i ≠ .seed stack buffers) :
    (m.runInstruction i).2.Accounts := by
  cases i with
  | seed stack buffers => exact absurd rfl (hi stack buffers)
  | create name => exact accounts_settle (accounts_done _)
  | onStack name call =>
    simp only [runInstruction, runOnStack, stackId]
    cases m.stackNames.get? name with
    | none => exact accounts_misuse _
    | some id => exact accounts_after (call.accounts_resolve m) fun k op => accounts_runOp k id op
  | takeView stack view => exact accounts_settle ((accounts_known _).bind fun _ => accounts_done _)
  | readView view query => exact accounts_settle accounts_readView
  | evaluate value =>
    exact accounts_settle ((Term.accounts_eval m value).bind fun _ => accounts_done _)
  | wrap buffer =>
    exact accounts_settle ((Term.accounts_eval m buffer).bind fun (k, v) => Term.accounts_wrap k v)
  | share entry => exact accounts_settle (accounts_withBuffer fun _ _ => accounts_done _)
  | makeUnique entry => exact accounts_settle (accounts_withBuffer fun _ _ => accounts_done _)
  | isShared entry other =>
    exact accounts_settle (accounts_withBuffer fun _ _ => accounts_withBuffer fun _ _ =>
      accounts_done _)
  | entryBytes entry => exact accounts_settle accounts_ask
  | entryNumber entry minimal =>
    exact accounts_settle ((Term.accounts_eval m entry).bind fun (k, _) =>
      (accounts_ofGiven _).bind fun e => (e.accounts_toNumber k.heap minimal).bind fun _ =>
        accounts_done _)
  | entryCommit entry => exact accounts_after (Term.accounts_eval m entry) accounts_commitValue
  | entryValue entry => exact accounts_settle accounts_ask
  | entryDisplay entry =>
    exact accounts_settle ((Term.accounts_eval m entry).bind fun (k, v) =>
      (accounts_ofText _).bind fun _ => accounts_done _)
  | equal left right =>
    exact accounts_settle ((Term.accounts_eval m left).bind fun (k, v) =>
      (Term.accounts_eval k right).bind fun (l, w) =>
        (accounts_ofExcept (Value.not_contract_same _ _ _)).bind fun _ => accounts_done _)
  | setSize items =>
    exact accounts_settle ((Term.accounts_eval m items).bind fun (k, v) =>
      (accounts_ofGiven _).bind fun vs =>
        (accounts_ofExcept (Value.not_contract_setSize _ _)).bind fun _ => accounts_done _)
  | readBuffer entry => exact accounts_settle (accounts_withBuffer fun _ _ => accounts_done _)
  | edit entry call => exact accounts_editBuffer

theorem accounts_seedItems (m : Machine) (buffers : Term) : (m.seedItems buffers).Accounts :=
  (Term.accounts_eval m buffers).bind fun _ => (accounts_ofGiven _).bind fun _ => accounts_done _

theorem log_seedStack {name : String} {buffers : Term} {v : Value}
    (hv : (m.seedStack name buffers).2.result = .ok v) : ∃ k w items,
      (buffers.eval m).result = .ok (k, w) ∧ w.items k.heap = .ok items ∧
      (m.seedStack name buffers).2.log =
        [⟨Stack.logger, .debug, Stack.seededText items.length⟩] := by
  obtain ⟨k, w, items, s, hw, hitems, hs, _⟩ := seedStack_eq_ok hv
  have hgiven := seedItems_eq_ok.mpr ⟨w, hw, hitems⟩
  have hlog := Stack.log_seed _ hs
  rw [List.length_map] at hlog
  refine ⟨k, w, items, hw, hitems, ?_⟩
  rw [seedStack, attempt_after, log_bind_of_ok hgiven, (accounts_seedItems m buffers).ok _ hgiven,
    attempt_seedNamed]
  exact hlog

theorem error_seedStack (m : Machine) (name : String) (buffers : Term) (fault : Fault)
    (hfault : (m.seedStack name buffers).2.result = .error fault) :
    fault.Recorded (m.seedStack name buffers).2.log := by
  rw [seedStack, attempt_after] at hfault ⊢
  refine (accounts_seedItems m buffers).error_bind (fun y other hother => ?_) fault hfault
  obtain ⟨k, items⟩ := y
  rw [attempt_seedNamed] at hother ⊢
  refine Stack.error_seed _ _ other ?_
  rw [Attempt.result_map] at hother
  cases hseed : (Stack.seed k.heap (items.map (Value.newBytes k.heap))).2.result with
  | ok s =>
    rw [hseed] at hother
    cases hother
  | error cause =>
    rw [hseed] at hother
    cases hother
    rfl

theorem recorded_of_error {s : Step} {fault : Fault} (h : (m.step s).2.result = .error fault) :
    fault.Recorded (m.step s).2.log := by
  rw [attempt_step] at h ⊢
  -- seeding is apart from the others, since it also logs when it succeeds
  by_cases hseed : ∃ stack buffers, s.instruction = .seed stack buffers
  · obtain ⟨stack, buffers, hs⟩ := hseed
    rw [hs] at h ⊢
    exact error_seedStack m stack buffers fault h
  · exact (accounts_runInstruction fun stack buffers hs => hseed ⟨stack, buffers, hs⟩).error fault h

theorem log_of_ok {s : Step} {v : Value} (h : (m.step s).2.result = .ok v) :
    ((m.step s).2.log = [] ∧ ∀ stack buffers, s.instruction ≠ .seed stack buffers) ∨
      ∃ stack buffers k w items, s.instruction = .seed stack buffers ∧
        (buffers.eval m).result = .ok (k, w) ∧ w.items k.heap = .ok items ∧
        (m.step s).2.log = [⟨Stack.logger, .debug, Stack.seededText items.length⟩] := by
  rw [attempt_step] at h ⊢
  by_cases hseed : ∃ stack buffers, s.instruction = .seed stack buffers
  · obtain ⟨stack, buffers, hs⟩ := hseed
    rw [hs] at h ⊢
    obtain ⟨k, w, items, hw, hitems, hlog⟩ := log_seedStack h
    exact .inr ⟨stack, buffers, k, w, items, rfl, hw, hitems, hlog⟩
  · have hother : ∀ stack buffers, s.instruction ≠ .seed stack buffers :=
      fun stack buffers hs => hseed ⟨stack, buffers, hs⟩
    exact .inl ⟨(accounts_runInstruction hother).ok v h, hother⟩

def isError (r : Log.Record) : Bool := r.level == .error

theorem errors_of_records (fault : Fault) :
    fault.records.countP isError = if fault.family? = some .contract then 1 else 0 := by
  by_cases hfamily : fault.family? = some .contract
  · obtain ⟨logger, text, hrecords⟩ := Fault.records_of_contract hfamily
    rw [if_pos hfamily, hrecords]
    rfl
  · rw [if_neg hfamily, Fault.records_of_not_contract hfamily]
    rfl

/-- A step logs one error if it ends in a violation of the contract, and none otherwise. -/
theorem errors_step (m : Machine) (s : Step) : (m.step s).2.log.countP isError =
    if Family.contract.Stops (m.step s).2.result then 1 else 0 := by
  cases hx : (m.step s).2.result with
  | error fault =>
    rw [(recorded_of_error hx).log, errors_of_records]
    simp only [Family.stops_error]
  | ok v =>
    rw [if_neg Family.not_stops_ok]
    obtain ⟨hlog, _⟩ | ⟨_, _, _, _, _, _, _, _, hlog⟩ := log_of_ok hx
    · rw [hlog]
      rfl
    · rw [hlog]
      rfl

theorem errors_trace (m : Machine) (steps : List Step) :
    ((m.trace steps).flatMap fun y => y.2.log).countP isError =
      (m.trace steps).countP fun y => Family.contract.Stops y.2.result := by
  induction steps generalizing m with
  | nil => rfl
  | cons s rest ih =>
    have hrest := ih (m.step s).1
    rw [trace, List.flatMap_cons, List.countP_append, errors_step, hrest, List.countP_cons,
      Nat.add_comm]
    simp only [decide_eq_true_eq]

theorem log_of_contract {s : Step} {fault : Fault} (hx : (m.step s).2.result = .error fault)
    (hfamily : fault.family? = some .contract) : ∃ text,
      (m.step s).2.log =
        [⟨if fault.isPlacement then Stack.logger else Content.logger, .error, text⟩] ∧
      (fault.isPlacement → fault.text? = some text) := by
  obtain ⟨hlog, hwritten⟩ := recorded_of_error hx
  rw [hlog]
  have hplaced : fault.isPlacement = true → fault.text? = some (fault.text?.getD "") := by
    intro hplace
    obtain ⟨text, htext⟩ := Option.isSome_iff_exists.mp (hwritten hplace)
    rw [htext]
    rfl
  cases fault <;> simp [Fault.family?] at hfamily
  · exact ⟨_, rfl, hplaced⟩
  · exact ⟨_, rfl, hplaced⟩
  · exact ⟨_, rfl, fun hplace => by cases hplace⟩
  · exact ⟨_, rfl, fun hplace => by cases hplace⟩

theorem seeds_of_other {s : Step} {r : Log.Record} (hr : r ∈ (m.step s).2.log)
    (hlevel : isError r = false) : ∃ stack buffers v, s.instruction = .seed stack buffers ∧
      (m.step s).2.result = .ok v := by
  cases hx : (m.step s).2.result with
  | error fault =>
    rw [(recorded_of_error hx).log] at hr
    by_cases hfamily : fault.family? = some .contract
    · obtain ⟨logger, text, hrecords⟩ := Fault.records_of_contract hfamily
      rw [hrecords, List.mem_singleton] at hr
      rw [hr] at hlevel
      cases hlevel
    · rw [Fault.records_of_not_contract hfamily] at hr
      cases hr
  | ok v =>
    obtain ⟨hlog, _⟩ | ⟨stack, buffers, _, _, _, hs, _⟩ := log_of_ok hx
    · rw [hlog] at hr
      cases hr
    · exact ⟨stack, buffers, v, hs, rfl⟩

/-- Violations of the contract, and only they, are logged as errors, once each: by the module of the
stack and in the words of the fault where they are about an offset or an index, and by the module of
the entries where they are about a width. Besides that, seeding that succeeds logs one record, which
says how many items there were. Over a run there is one error for each step that ends in a violation. -/
theorem contract_violations_logged_once :
    (∀ (m : Machine) (s : Step), let x := (m.step s).2
      x.log.countP isError = (if Family.contract.Stops x.result then 1 else 0) ∧
      (∀ fault, x.result = .error fault → fault.family? = some .contract → ∃ text,
        x.log = [⟨if fault.isPlacement then Stack.logger else Content.logger, .error, text⟩] ∧
        (fault.isPlacement → fault.text? = some text)) ∧
      (∀ r ∈ x.log, isError r = false → ∃ stack buffers v, s.instruction = .seed stack buffers ∧
        x.result = .ok v) ∧
      ∀ stack buffers v, s.instruction = .seed stack buffers → x.result = .ok v →
        ∃ k w items, (buffers.eval m).result = .ok (k, w) ∧ w.items k.heap = .ok items ∧
          x.log = [⟨Stack.logger, .debug, Stack.seededText items.length⟩]) ∧
    ∀ (m : Machine) (program : List Step),
      ((m.trace program).flatMap fun y => y.2.log).countP isError =
        (m.trace program).countP fun y => Family.contract.Stops y.2.result := by
  refine ⟨fun m s => ⟨errors_step m s, fun fault => log_of_contract, fun r => seeds_of_other,
    fun stack buffers v hs hx => ?_⟩, errors_trace⟩
  obtain ⟨_, hother⟩ | ⟨_, _, k, w, items, hseed, hw, hitems, hlog⟩ := log_of_ok hx
  · exact absurd hs (hother stack buffers)
  · cases hs.symm.trans hseed
    exact ⟨k, w, items, hw, hitems, hlog⟩

end Machine

end ScriptStack
