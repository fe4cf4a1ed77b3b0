import ScriptStack.Value.Basic

/-! What can be asked of a value: most of it only of entries, some of other values too. -/
namespace ScriptStack.Value

def asEntry : Value → Except Misuse Entry
  | entry e => .ok e
  | _ => .error .noMember

def asBuffer (h : Heap) : Value → Except Misuse BufferId
  | entry e => (e.buffer? h).elim (.error .noMember) .ok
  | _ => .error .noMember

def singleByte (v : Int) : Except Misuse Bytes :=
  if 0 ≤ v ∧ v < 256 then .ok [UInt8.ofNat v.toNat] else .error .tooLarge

def asBytes (h : Heap) : Value → Except Misuse Bytes
  | entry e => .ok (e.toBytes h)
  | number n => .ok n.toBytes.1
  | integer v => singleByte v
  | flag b => singleByte (Quantity.flagValue b)
  | _ => .error .noMember

def asInteger (h : Heap) : Value → Except Misuse Int
  | entry e => (e.number? h).elim (.error .noMember) .ok
  | number n => .ok n.value
  | _ => .error .noMember

theorem asBytes_entry (h : Heap) (e : Entry) : (entry e).asBytes h = .ok (e.toBytes h) := rfl

theorem asBuffer_eq_ok {h : Heap} {v : Value} {b : BufferId} :
    v.asBuffer h = .ok b ↔ ∃ e, v = .entry e ∧ h.operand e = .buffer b := by
  cases v <;> simp [asBuffer]
  case entry e =>
    cases ho : h.operand e <;> simp [Entry.buffer?, Operand.buffer?, ho]

end ScriptStack.Value
