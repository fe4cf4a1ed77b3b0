import ScriptStack.Proofs.Program.Soundness
import ScriptStack.Proofs.Stack.Request

/-! Which faults a program can run into where it gives every operation the arguments that it takes. -/
namespace ScriptStack

/-- A term has a value, with the machine that evaluating it leads to, and the two are so. -/
def Term.Gives (m : Machine) (t : Term) (p : Machine → Value → Prop) : Prop :=
  ∃ k v, (t.eval m).result = .ok (k, v) ∧ p k v

namespace Value

def IsBytes (m : Machine) (v : Value) : Prop := (v.octets? m.heap).isSome

def IsEntryOf (kind : Kind) (m : Machine) (v : Value) : Prop := ∃ e, v = .entry e ∧ e.kind m.heap = kind

def IsStacked (v : Value) : Prop := (∃ e, v = .entry e) ∨ ∃ id, v = .stack id

theorem newBytes_of_isBytes {m : Machine} {v : Value} (h : v.IsBytes m) :
    ∃ data, v.newBytes m.heap = .ok data := by
  cases v <;> cases h <;> exact ⟨_, rfl⟩

theorem isOk_newBytes {m : Machine} {v : Value} (h : v.IsBytes m) : (v.newBytes m.heap).isOk := by
  obtain ⟨data, hdata⟩ := newBytes_of_isBytes h
  rw [hdata]
  rfl

theorem asInteger_of_isEntryOf {m : Machine} {v : Value} (h : v.IsEntryOf .numberEntry m) :
    ∃ n, v.asInteger m.heap = .ok n := by
  obtain ⟨e, rfl, he⟩ := h
  rw [Entry.kind] at he
  rw [asInteger, Entry.number?]
  cases ho : m.heap.operand e with
  | number n => exact ⟨n, rfl⟩
  | buffer b =>
    rw [ho] at he
    cases he

theorem same_of_isStacked {v : Value} (h : v.IsStacked) (σ : Store) (w : Value) :
    ∃ b, v.same σ w = .ok b := by
  obtain ⟨e, rfl⟩ | ⟨id, rfl⟩ := h
  · cases w <;> simp [same, samePlain, ScriptNumber.relate, comparand, octets?, quantity]
  · cases w <;> simp [same, samePlain, ScriptNumber.relate, comparand, octets?, quantity]

end Value

namespace StackCall

variable {m : Machine}

/-- The arguments are of the sorts that a call is written for: integers, which flags are too, for
offsets, indices and counts; an entry, an integer or a byte string to push. -/
def WellTyped (m : Machine) : StackCall → Prop
  | top t | topBytes t | topNumber t _ | bytesAt t | removeAt t | needAtLeast t | popN t =>
    t.Gives m fun _ v => v.index?.isSome
  | push t => t.Gives m fun _ v => ∃ e, v = .entry e
  | pushNumber t => t.Gives m fun _ v => ∃ n, v = .integer n
  | pushBytes t => t.Gives m fun k v => v.IsBytes k
  | _ => True

theorem resolve_withArgument {t : Term} {op : Machine → Value → StackOp} {p : Machine → Value → Prop}
    (h : t.Gives m p) (hop : ∀ k v, p k v → (op k v).WellTyped) :
    ∃ k o, (withArgument m t op).result = .ok (k, o) ∧ o.WellTyped := by
  obtain ⟨k, v, hv, hp⟩ := h
  exact ⟨k, op k v, Attempt.result_bind_eq_ok.mpr ⟨_, hv, rfl⟩, hop k v hp⟩

theorem quantity_of_index? {v : Value} (h : v.index?.isSome) :
    ∃ q, v.quantity = .ok q ∧ q.integer?.isSome := by
  cases v <;> cases h <;> exact ⟨_, rfl, rfl⟩

theorem WellTyped.resolve {call : StackCall} (h : call.WellTyped m) :
    ∃ k op, (call.resolve m).result = .ok (k, op) ∧ op.WellTyped := by
  cases call with
  | height | isEmpty | hasEntries | last | pop | popBytes | popNumber | commit | display | json
  | table => exact ⟨m, _, rfl, trivial⟩
  | top t | topBytes t | topNumber t _ | bytesAt t | removeAt t =>
    exact resolve_withArgument h fun _ _ hv => hv
  | needAtLeast t | popN t => exact resolve_withArgument h fun _ _ hv => quantity_of_index? hv
  | push t =>
    refine resolve_withArgument h ?_
    rintro k _ ⟨e, rfl⟩
    rfl
  | pushNumber t =>
    refine resolve_withArgument h ?_
    rintro k _ ⟨n, rfl⟩
    rfl
  | pushBytes t => exact resolve_withArgument h fun _ _ hv => Value.isOk_newBytes hv

end StackCall

namespace Instruction

/-- The operation is one on stacks or on entries, and its arguments are of the sorts that it takes. -/
def WellTyped (m : Machine) : Instruction → Prop
  | create _ => True
  | seed _ t => t.Gives m fun k v => ∃ items, v = .list items ∧ ∀ item ∈ items, item.IsBytes k
  | onStack name call => (∃ id, m.stackNames.get? name = some id) ∧ call.WellTyped m
  | takeView name _ => ∃ id, m.stackNames.get? name = some id
  | evaluate (.numberEntry t) => t.Gives m fun _ v => ∃ n, v = .integer n
  | evaluate (.bytesEntry t) => t.Gives m fun k v => v.IsBytes k
  | wrap t => t.Gives m fun _ v => ∃ b, v = .byteArray b
  | share t | makeUnique t | readBuffer t => t.Gives m fun k v => v.IsEntryOf .bytesEntry k
  | isShared t u => t.Gives m fun k v => v.IsEntryOf .bytesEntry k ∧
      u.Gives k fun l w => w.IsEntryOf .bytesEntry l
  | entryBytes t | entryNumber t _ => t.Gives m fun _ v => ∃ e, v = .entry e
  | entryCommit t | entryDisplay t => t.Gives m fun _ v => v.IsStacked
  | entryValue t => t.Gives m fun k v => v.IsEntryOf .numberEntry k
  | equal t u => t.Gives m fun k v => v.IsStacked ∧ u.Gives k fun _ _ => True
  | _ => False

def request (m : Machine) : Instruction → Request
  | onStack name call =>
    match m.stackNames.get? name, (call.resolve m).result with
    | some id, .ok (k, op) => op.request k.heap (m.store.stack id)
    | _, _ => .free
  | entryNumber t minimal =>
    match (t.eval m).result with
    | .ok (k, .entry e) => Request.free.reading (some (e.content k.heap)) minimal
    | _ => .free
  | entryCommit t =>
    match (t.eval m).result with
    | .ok (k, .entry e) => .commit [e.content k.heap]
    | .ok (k, .stack id) => .commit ((k.store.stack id).contents k.heap)
    | _ => .free
  | entryDisplay t =>
    match (t.eval m).result with
    | .ok (k, .entry e) => .display (e.content k.heap).isWritable
    | .ok (k, .stack id) => .display ((k.store.stack id).isWritable k.heap)
    | _ => .free
  | _ => .free

end Instruction

namespace Machine

open Request

variable {m : Machine}

theorem explains_settle {r : Request} {x : Attempt (Machine × Value)} (hx : r.Explains x.result) :
    r.Explains (m.settle x).2.result := by
  have hmap := hx.map Prod.snd
  cases hr : x.result with
  | ok y =>
    rw [hr] at hmap
    rw [(settle_ok hr).2]
    exact hmap
  | error fault =>
    rw [hr] at hmap
    rw [(settle_error hr).2]
    exact hmap

theorem explains_settle_ok {x : Attempt (Machine × Value)} {y : Machine × Value}
    (hx : x.result = .ok y) : free.Explains (m.settle x).2.result := by
  refine explains_settle ?_
  rw [hx]
  exact explains_free y

theorem explains_entryDisplay_of {t : Term} {k : Machine} {v : Value} {written : Bool} {text : String}
    (hv : (t.eval m).result = .ok (k, v))
    (hshown : v.display? k.store = if written then some text else none) :
    (display written).Explains (m.runInstruction (.entryDisplay t)).2.result := by
  refine explains_settle ?_
  rw [Attempt.result_bind_of_ok hv]
  simp only [hshown]
  exact (explains_display written text).bind_done _

theorem explains_entryDisplay {t : Term} (h : (Instruction.entryDisplay t).WellTyped m) :
    ((Instruction.entryDisplay t).request m).Explains
      (m.runInstruction (.entryDisplay t)).2.result := by
  obtain ⟨k, _, hv, ⟨e, rfl⟩ | ⟨id, rfl⟩⟩ := h
  · simp only [Instruction.request, hv]
    exact explains_entryDisplay_of hv (by rw [Value.display?, Entry.display?, Content.display?]; rfl)
  · simp only [Instruction.request, hv]
    exact explains_entryDisplay_of hv (by rw [Value.display?, Stack.display?]; rfl)

theorem explains_seed {name : String} {t : Term} (h : (Instruction.seed name t).WellTyped m) :
    free.Explains (m.seedStack name t).2.result := by
  obtain ⟨k, v, hv, items, rfl, hall⟩ := h
  have hgood : ∀ given ∈ items.map (Value.newBytes k.heap), given.isOk :=
    List.forall_mem_map.mpr fun item hitem => Value.isOk_newBytes (hall item hitem)
  obtain ⟨s, hfrom⟩ := Stack.exists_seedFrom_of_isOk (h := k.heap) (s := .empty) hgood
  rw [result_seedStack hv rfl, Stack.seed_eq_ok.mpr hfrom]
  exact explains_free _

theorem explains_onStack {name : String} {call : StackCall}
    (h : (Instruction.onStack name call).WellTyped m) (into : Option String) :
    ((Instruction.onStack name call).request m).Explains
      (m.step ⟨.onStack name call, into⟩).2.result := by
  obtain ⟨⟨id, hid⟩, hcall⟩ := h
  obtain ⟨k, op, hop, htyped⟩ := hcall.resolve
  have hrequest : (Instruction.onStack name call).request m =
      op.request k.heap (m.store.stack id) := by
    simp only [Instruction.request, hid, hop]
  rw [hrequest, result_onStack hid hop]
  exact (StackOp.request_explains htyped k.heap (m.store.stack id)).map _

theorem explains_entryNumber {t : Term} {minimal : Bool}
    (h : (Instruction.entryNumber t minimal).WellTyped m) :
    ((Instruction.entryNumber t minimal).request m).Explains
      (m.runInstruction (.entryNumber t minimal)).2.result := by
  obtain ⟨k, _, hv, e, rfl⟩ := h
  have hnumber : (free.reading (some (e.content k.heap)) minimal).Explains
      (Attempt.ofExcept (e.toNumber k.heap minimal)).result := by
    rw [Attempt.result_ofExcept]
    exact explains_toNumber id (covered_of_none rfl) id minimal (e.content k.heap)
  simp only [Instruction.request, hv]
  refine explains_settle ?_
  rw [withEntry, Attempt.result_bind_of_ok hv]
  exact hnumber.bind_done _

theorem explains_entryCommit {t : Term} (h : (Instruction.entryCommit t).WellTyped m) :
    ((Instruction.entryCommit t).request m).Explains
      (m.runInstruction (.entryCommit t)).2.result := by
  obtain ⟨k, _, hv, ⟨e, rfl⟩ | ⟨id, rfl⟩⟩ := h
  · simp only [Instruction.request, hv]
    rw [runInstruction, attempt_after, Attempt.result_bind_of_ok hv, commitValue,
      Attempt.result_map]
    exact (explains_content_commit _).map _
  · simp only [Instruction.request, hv]
    rw [runInstruction, attempt_after, Attempt.result_bind_of_ok hv, commitValue, runOp,
      Attempt.result_map]
    exact (StackOp.commit_explained _ _).map _

theorem explains_withBuffer {t : Term} {f : Machine → BufferId → Attempt (Machine × Value)}
    (h : t.Gives m fun k v => v.IsEntryOf .bytesEntry k) (hf : ∀ k b, ∃ y, (f k b).result = .ok y) :
    free.Explains (m.settle (m.withBuffer t f)).2.result := by
  obtain ⟨k, _, hv, e, rfl, he⟩ := h
  obtain ⟨b, hb⟩ := Operand.kind_eq_bytesEntry.mp he
  obtain ⟨y, hy⟩ := hf k b
  exact explains_settle_ok (withBuffer_eq_ok.mpr ⟨k, e, b, hv, hb, hy⟩)

theorem explains_ask {α : Type} {t : Term} {question : Machine → Value → Except Misuse α}
    {answer : α → Value} {p : Machine → Value → Prop} (h : t.Gives m p)
    (hq : ∀ k v, p k v → ∃ a, question k v = .ok a) :
    free.Explains (m.settle (m.ask t question answer)).2.result := by
  obtain ⟨k, v, hv, hp⟩ := h
  obtain ⟨a, ha⟩ := hq k v hp
  exact explains_settle_ok (Attempt.result_bind_eq_ok.mpr ⟨_, hv,
    Attempt.result_bind_eq_ok.mpr ⟨a, Attempt.result_ofGiven_eq_ok.mpr ha, rfl⟩⟩)

/-- With arguments of the sorts that it takes, an operation on a stack or on an entry ends as what it
asks for explains. -/
theorem request_explains_step (m : Machine) (s : Step) (hs : s.instruction.WellTyped m) :
    (s.instruction.request m).Explains (m.step s).2.result := by
  obtain ⟨i, into⟩ := s
  simp only at hs ⊢
  rw [result_step]
  cases i with
  | onStack name call => exact result_step m _ ▸ explains_onStack hs into
  | entryNumber t minimal => exact explains_entryNumber hs
  | entryCommit t => exact explains_entryCommit hs
  | seed name t => exact explains_seed hs
  | create name => exact explains_settle_ok rfl
  | takeView name view =>
    obtain ⟨id, hid⟩ := hs
    have hfound : (m.stackId name).result = .ok id := result_known_eq_ok.mpr hid
    exact explains_settle_ok (Attempt.result_bind_eq_ok.mpr ⟨id, hfound, rfl⟩)
  | evaluate t =>
    cases t with
    | numberEntry t =>
      obtain ⟨k, _, hv, n, rfl⟩ := hs
      have hmade : ((Term.numberEntry t).eval m).result = .ok _ :=
        Attempt.result_bind_eq_ok.mpr ⟨_, hv, rfl⟩
      exact explains_settle_ok (Attempt.result_bind_eq_ok.mpr ⟨_, hmade, rfl⟩)
    | bytesEntry t =>
      obtain ⟨k, v, hv, hbytes⟩ := hs
      obtain ⟨data, hdata⟩ := Value.newBytes_of_isBytes hbytes
      have hmade : ((Term.bytesEntry t).eval m).result = .ok _ :=
        Attempt.result_bind_eq_ok.mpr ⟨_, hv,
          Attempt.result_bind_eq_ok.mpr ⟨data, Attempt.result_ofGiven_eq_ok.mpr hdata, rfl⟩⟩
      exact explains_settle_ok (Attempt.result_bind_eq_ok.mpr ⟨_, hmade, rfl⟩)
    | _ => cases hs
  | wrap t =>
    obtain ⟨k, _, hv, b, rfl⟩ := hs
    exact explains_settle_ok (Attempt.result_bind_eq_ok.mpr ⟨_, hv, rfl⟩)
  | share t | makeUnique t | readBuffer t =>
    exact explains_withBuffer hs fun k b => ⟨_, rfl⟩
  | isShared t u =>
    obtain ⟨k, _, hv, ⟨e, rfl, he⟩, l, _, hw, f, rfl, hf⟩ := hs
    obtain ⟨b, hb⟩ := Operand.kind_eq_bytesEntry.mp he
    obtain ⟨c, hc⟩ := Operand.kind_eq_bytesEntry.mp hf
    exact explains_settle_ok (withBuffer_eq_ok.mpr ⟨k, e, b, hv, hb,
      withBuffer_eq_ok.mpr ⟨l, f, c, hw, hc, rfl⟩⟩)
  | entryBytes t =>
    refine explains_ask hs ?_
    rintro k _ ⟨e, rfl⟩
    exact ⟨_, Value.asBytes_entry k.heap e⟩
  | entryValue t => exact explains_ask hs fun k v hv => Value.asInteger_of_isEntryOf hv
  | entryDisplay t => exact explains_entryDisplay hs
  | equal t u =>
    obtain ⟨k, v, hv, hstacked, l, w, hw, _⟩ := hs
    obtain ⟨b, hb⟩ := Value.same_of_isStacked hstacked l.store w
    have hsame : (Attempt.ofExcept (v.same l.store w)).result = .ok b := by
      rw [Attempt.result_ofExcept, hb]
    exact explains_settle_ok (Attempt.result_bind_eq_ok.mpr ⟨_, hv,
      Attempt.result_bind_eq_ok.mpr ⟨_, hw, Attempt.result_bind_eq_ok.mpr ⟨b, hsame, rfl⟩⟩⟩)
  | readView | setSize | edit => cases hs

/-- In every state that a program reaches, an operation on a stack or on an entry that is given what it
takes ends with an answer or in a fault of one of the families, and in those only that what it asks for
explains. Only where an integer that cannot be written has to be does it end in a bad value. -/
theorem only_documented_faults (program : List Step) (s : Step)
    (hs : s.instruction.WellTyped (start.run program)) :
    let m := start.run program
    let outcome := (m.step s).2.result
    let asked := s.instruction.request m
    ((∃ v, outcome = .ok v) ∨ (∃ fault family, outcome = .error fault ∧ fault.family? = some family) ∨
      asked.unwritten ∧ outcome = .error (.misuse .badValue)) ∧ asked.Explains outcome := by
  intro m outcome asked
  have hexplains : asked.Explains outcome := request_explains_step m s hs
  refine ⟨?_, hexplains⟩
  cases houtcome : outcome with
  | ok v => exact .inl ⟨v, rfl⟩
  | error fault =>
    obtain ⟨family, hfamily⟩ | hunwritten := hexplains.family houtcome
    · exact .inr (.inl ⟨fault, family, rfl, hfamily⟩)
    · exact .inr (.inr ⟨hunwritten, houtcome.symm.trans (hexplains.badValue.mpr hunwritten)⟩)

/-- On a stack that holds two zero bytes alone, two entries cannot be removed, the top is not at offset
zero, and it is no minimal number. -/
theorem faults_on_two_zeros :
    let m := start.run [⟨.onStack "s" (.pushBytes (.bytes [0, 0])), none⟩]
    let ends := fun call => (m.step ⟨.onStack "s" call, none⟩).2.result
    Family.underflow.Stops (ends (.popN (.integer 2))) ∧
      Family.contract.Stops (ends (.topBytes (.integer 0))) ∧
      ∃ fault, ends (.topNumber (.integer (-1)) true) = .error fault ∧ fault.IsNumeric true := by
  intro m ends
  have hgives : ∀ i : Int, (Term.integer i).Gives m fun _ v => v.index?.isSome :=
    fun i => ⟨m, .integer i, rfl, rfl⟩
  have hexplains := fun call (hcall : StackCall.WellTyped m call) =>
    (only_documented_faults _ ⟨.onStack "s" call, none⟩ ⟨⟨⟨0⟩, rfl⟩, hcall⟩).2
  have hdeep : ¬ ((Instruction.onStack "s" (.popN (.integer 2))).request m).unwritten := by
    rintro ⟨_, hnone⟩
    cases (Decimal.text?_of_lt (by decide)).symm.trans hnone
  have hplace : ¬ ((Instruction.onStack "s" (.topBytes (.integer 0))).request m).unwritten := by
    rintro ⟨_, ⟨⟩, ⟨_, hnone⟩ | ⟨hlow, _⟩⟩
    · cases (Decimal.text?_of_lt (by decide)).symm.trans hnone
    · cases hlow
  refine ⟨(hexplains (.popN (.integer 2)) (hgives 2)).underflow.mpr ⟨⟨2, rfl, by decide⟩, hdeep⟩,
    (hexplains (.topBytes (.integer 0)) (hgives 0)).contract.mpr ⟨⟨0, rfl, by decide⟩, hplace⟩, ?_⟩
  have hfault : ends (.topNumber (.integer (-1)) true) = .error (.notMinimal [0, 0]) := rfl
  have hothers := (hexplains (.topNumber (.integer (-1)) true) (hgives (-1))).others _ hfault
  obtain hfamily | hfamily | ⟨_, ⟨⟩, hnumeric⟩ | hbad := hothers
  · cases hfamily
  · cases hfamily
  · exact ⟨_, hfault, hnumeric⟩
  · cases hbad

/-- An offset that cannot be written is not below the top, and it is refused in none of the families. -/
theorem undocumented_at_overlong_offset :
    let look : Step := ⟨.onStack "s" (.top (.integer Decimal.overlong)), none⟩
    look.instruction.WellTyped start ∧ 0 ≤ (Decimal.overlong : Int) ∧
      (start.step look).2.result = .error (.misuse .badValue) ∧
      ∀ family : Family, ¬ family.Stops (start.step look).2.result := by
  intro look
  have htyped : look.instruction.WellTyped start :=
    ⟨⟨⟨0⟩, rfl⟩, start, .integer Decimal.overlong, rfl, rfl⟩
  have hhigh : 0 ≤ (Decimal.overlong : Int) := Int.natCast_nonneg _
  have hunwritten : (look.instruction.request start).unwritten :=
    ⟨Decimal.overlong, rfl, .inl ⟨hhigh, Decimal.text?_of_not_isWritable Decimal.isWritable_overlong⟩⟩
  have hbad := (request_explains_step start look htyped).badValue.mpr hunwritten
  refine ⟨htyped, hhigh, hbad, fun family => ?_⟩
  rw [hbad]
  exact family.not_stops_misuse _

end Machine

end ScriptStack
