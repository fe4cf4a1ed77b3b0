import ScriptStack.Proofs.Stack.Commitment

/-! What an operation on a stack leaves when it fails: all there was, or all but the entry that it
took off to read a number. -/
namespace ScriptStack

namespace StackOp

variable {h : Heap} {s : Stack} {fault : Fault}

/-- What is there after a fault: the buffers and entries, and the stack, but for the top entry where
it was popped as a number and cannot be read as one. -/
def Spares (h : Heap) (s : Stack) (op : StackOp) (fault : Fault) (o : Outcome) : Prop :=
  o.heap = h ∧ (o.stack = s ∨ ∃ minimal e rest, op = .popNumber minimal ∧ s.entries = e :: rest ∧
    e.toNumber h minimal = .error fault ∧ o.stack = ⟨rest⟩)

theorem spares_read {op : StackOp} {α : Type} (x : Attempt α) (answer : α → Answer) :
    Spares h s op fault (.read h s x answer) :=
  ⟨rfl, .inl rfl⟩

/-- An operation that checks first can only fail where nothing is done yet. -/
theorem spares_after {op : StackOp} {α : Type} {check : Attempt α} {act : α → Outcome}
    (hact : ∀ a, ∃ v, (act a).attempt.result = .ok v)
    (hf : (Outcome.after h s check act).attempt.result = .error fault) :
    Spares h s op fault (.after h s check act) := by
  cases hc : check.result with
  | ok a =>
    obtain ⟨v, hv⟩ := hact a
    rw [Outcome.after_ok hc] at hf
    cases hv.symm.trans hf
  | error cause =>
    rw [Outcome.after_error hc]
    exact ⟨rfl, .inl rfl⟩

theorem consume_nil {α : Type} (hs : s.entries = []) (read : Entry → Except Fault α)
    (answer : α → Answer) : consume h s read answer = ⟨h, s, .fail Stack.emptyPop⟩ := by
  rw [consume, hs]

theorem consume_cons {α : Type} {e : Entry} {rest : List Entry} (hs : s.entries = e :: rest)
    (read : Entry → Except Fault α) (answer : α → Answer) :
    consume h s read answer = .read h ⟨rest⟩ (.ofExcept (read e)) answer := by
  have hrest : s.drop 1 = ⟨rest⟩ := by rw [Stack.drop, hs, List.drop_succ_cons, List.drop_zero]
  rw [consume, hs]
  simp only [hrest]

theorem result_read_ofExcept {α : Type} (x : Except Fault α) (answer : α → Answer) :
    (Outcome.read h s (.ofExcept x) answer).attempt.result = x.map answer := by
  cases x <;> rfl

theorem run_spares {op : StackOp} (hf : (op.run h s).attempt.result = .error fault) :
    op.Spares h s fault (op.run h s) := by
  cases op with
  | pop =>
    simp only [run, popTop] at hf
    split at hf <;> cases hf
  | popBytes =>
    rw [run] at hf ⊢
    cases hs : s.entries with
    | nil =>
      rw [consume_nil hs]
      exact ⟨rfl, .inl rfl⟩
    | cons e rest =>
      rw [consume_cons hs, result_read_ofExcept] at hf
      cases hf
  | popNumber minimal =>
    -- the only operation that takes an entry off before it can fail
    rw [run] at hf ⊢
    cases hs : s.entries with
    | nil =>
      rw [consume_nil hs]
      exact ⟨rfl, .inl rfl⟩
    | cons e rest =>
      rw [consume_cons hs, result_read_ofExcept] at hf
      rw [consume_cons hs]
      have hnumber : e.toNumber h minimal = .error fault := by
        cases hx : e.toNumber h minimal with
        | ok v =>
          rw [hx] at hf
          cases hf
        | error cause =>
          rw [hx] at hf
          cases hf
          rfl
      exact ⟨rfl, .inr ⟨minimal, e, rest, rfl, hs, hnumber, rfl⟩⟩
  | push given | pushNumber given | pushBytes given =>
    cases given with
    | ok _ => cases hf
    | error _ => exact ⟨rfl, .inl rfl⟩
  | popN | removeAt | commit => exact spares_after (fun _ => ⟨_, rfl⟩) hf
  | height | isEmpty | hasEntries | top | topBytes | topNumber | last | bytesAt | needAtLeast
  | display | json | table => exact spares_read _ _

theorem run_popNumber_error {minimal : Bool} {e : Entry} {rest : List Entry}
    (hs : s.entries = e :: rest) (he : e.toNumber h minimal = .error fault) :
    (popNumber minimal).run h s = ⟨h, ⟨rest⟩, .fail fault⟩ := by
  rw [run, consume_cons hs, he]
  rfl

end StackOp

namespace Stack

variable {h : Heap} {s : Stack} {cause : Misuse}

theorem seedFrom_error (good : List Bytes) (rest : List (Except Misuse Bytes)) :
    (seedFrom h s (good.map .ok ++ .error cause :: rest)).2 = .error cause := by
  induction good generalizing h s with
  | nil => rfl
  | cons data good ih =>
    rw [List.map_cons, List.cons_append, seedFrom]
    exact ih

theorem seed_error (good : List Bytes) (rest : List (Except Misuse Bytes)) :
    (seed h (good.map .ok ++ .error cause :: rest)).2.result = .error (.misuse cause) := by
  simp only [seed, seedFrom_error]
  rfl

end Stack

end ScriptStack
