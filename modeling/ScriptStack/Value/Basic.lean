import ScriptStack.Index
import ScriptStack.Number.ScriptNumber
import ScriptStack.Store

/-! The values that a program passes around. -/
namespace ScriptStack

/-- Byte arrays and stacks are shared by reference, all else is a value of its own. A real number
keeps its identity for the sake of the one that equals nothing. -/
inductive Value where
  | nothing
  | flag (b : Bool)
  | integer (v : Int)
  | text (s : String)
  | real (x : Binary64) (id : RealId)
  | bytes (data : Bytes)
  | memory (data : Bytes)
  | byteArray (id : BufferId)
  | list (items : List Value)
  | number (n : ScriptNumber)
  | entry (e : Entry)
  | stack (id : StackId)

instance : Inhabited Value := ⟨.nothing⟩

namespace Value

def kind (h : Heap) : Value → Kind
  | nothing => .nothing
  | flag _ => .flag
  | integer _ => .integer
  | text _ => .text
  | real _ _ => .real
  | bytes _ => .bytes
  | memory _ => .memory
  | byteArray _ => .byteArray
  | list _ => .list
  | number _ => .scriptNumber
  | entry e => e.kind h
  | stack _ => .stack

def octets? (h : Heap) : Value → Option Bytes
  | bytes data => some data
  | memory data => some data
  | byteArray b => some (h.read b)
  | _ => none

def index? : Value → Option Int
  | integer v => some v
  | flag b => some (Quantity.flagValue b)
  | _ => none

def index (v : Value) : Except Misuse Int := v.index?.elim (.error .wrongKind) .ok

def quantity : Value → Except Misuse Quantity
  | integer v => .ok (.integer v)
  | flag b => .ok (.flag b)
  | real x _ => .ok (.real x)
  | number n => .ok (.number n.value)
  | _ => .error .wrongKind

def integer? (h : Heap) : Value → Except Kind Int
  | integer v => .ok v
  | v => .error (v.kind h)

def entry? (h : Heap) : Value → Except Kind Entry
  | entry e => .ok e
  | v => .error (v.kind h)

def byte (v : Value) : Except Misuse UInt8 :=
  match v.index? with
  | some i => if 0 ≤ i ∧ i < 256 then .ok (UInt8.ofNat i.toNat) else .error .badValue
  | none => .error .wrongKind

def byteList (items : List Value) : Except Misuse Bytes := items.mapM byte

def roomForBytes : Int := 0x10000000

/-- The contents of a new byte array. An integer asks for so many zero bytes. -/
def newBytes (h : Heap) (v : Value) : Except Misuse Bytes :=
  match v.index?, v.octets? h, v with
  | some n, _, _ =>
    if !Index.fitsWord n then .error .tooLarge
    else if n < 0 then .error .badValue
    else if roomForBytes < n then .error .noMemory
    else .ok (List.replicate n.toNat 0)
  | none, some data, _ => .ok data
  | none, none, list items => byteList items
  | none, none, _ => .error .wrongKind

def moreBytes (h : Heap) (v : Value) : Except Misuse Bytes :=
  match v.octets? h, v with
  | some data, _ => .ok data
  | none, list items => byteList items
  | none, text s => if s.isEmpty then .ok [] else .error .wrongKind
  | none, _ => .error .wrongKind

def replacementBytes (h : Heap) (v : Value) : Except Misuse Bytes :=
  match v.octets? h, v with
  | some data, _ => .ok data
  | none, list items => byteList items
  | none, _ => .error .wrongKind

def items (h : Heap) (v : Value) : Except Misuse (List Value) :=
  match v.octets? h, v with
  | some data, _ => .ok (data.map fun b => integer b.toNat)
  | none, list items => .ok items
  | none, text s => .ok (s.toList.map fun c => text (String.singleton c))
  | none, _ => .error .wrongKind

end Value

end ScriptStack
