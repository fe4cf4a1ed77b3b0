import ScriptStack.Fault
import ScriptStack.Log.Level

/-! A computation that may fail and leaves records behind, also when it fails. -/
namespace ScriptStack

structure Attempt (α : Type) where
  log : List Log.Record
  result : Except Fault α

namespace Attempt

variable {α β : Type}

def done (a : α) : Attempt α := ⟨[], .ok a⟩

def fail (fault : Fault) : Attempt α := ⟨[], .error fault⟩

def bind (x : Attempt α) (f : α → Attempt β) : Attempt β :=
  match x.result with
  | .ok a => ⟨x.log ++ (f a).log, (f a).result⟩
  | .error fault => ⟨x.log, .error fault⟩

def raise (fault : Fault) : Attempt α := fail fault.raised

def ofText (text : Option String) : Attempt String := text.elim (fail (.misuse .badValue)) done

/-- Logs an error and raises a fault. Without a text for the log it does not come to that. -/
def refuse (logger : String) (message : Option String) (fault : Fault) : Attempt α :=
  match message with
  | some message => ⟨[⟨logger, .error, message⟩], .error fault.raised⟩
  | none => fail (.misuse .badValue)

def note (logger : String) (level : Log.Level) (message : String) : Attempt Unit :=
  ⟨[⟨logger, level, message⟩], .ok ()⟩

def map (f : α → β) (x : Attempt α) : Attempt β := ⟨x.log, x.result.map f⟩

def ofExcept : Except Fault α → Attempt α
  | .ok a => done a
  | .error fault => fail fault

def ofGiven (given : Except Misuse α) : Attempt α := ofExcept (Misuse.lift given)

@[simp] theorem done_bind (a : α) (f : α → Attempt β) : (done a).bind f = f a := rfl

@[simp] theorem fail_bind (fault : Fault) (f : α → Attempt β) :
    (fail fault : Attempt α).bind f = fail fault := rfl

@[simp] theorem result_done (a : α) : (done a).result = .ok a := rfl

@[simp] theorem result_fail (fault : Fault) : (fail fault : Attempt α).result = .error fault := rfl

@[simp] theorem result_ofExcept (x : Except Fault α) : (ofExcept x).result = x := by
  cases x <;> rfl

theorem result_ofGiven_eq_ok {given : Except Misuse α} {a : α} :
    (ofGiven given).result = .ok a ↔ given = .ok a := by
  cases given <;> simp [ofGiven, Misuse.lift]

theorem result_bind_of_ok {x : Attempt α} {f : α → Attempt β} {a : α} (hx : x.result = .ok a) :
    (x.bind f).result = (f a).result := by
  simp only [bind, hx]

theorem result_bind_eq_ok {x : Attempt α} {f : α → Attempt β} {b : β} :
    (x.bind f).result = .ok b ↔ ∃ a, x.result = .ok a ∧ (f a).result = .ok b := by
  rw [bind]
  cases hx : x.result <;> simp

theorem result_bind_eq_error {x : Attempt α} {f : α → Attempt β} {fault : Fault} :
    (x.bind f).result = .error fault ↔
      x.result = .error fault ∨ ∃ a, x.result = .ok a ∧ (f a).result = .error fault := by
  rw [bind]
  cases hx : x.result <;> simp

end Attempt

end ScriptStack
