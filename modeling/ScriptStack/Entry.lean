import ScriptStack.Attempt
import ScriptStack.Heap
import ScriptStack.Number.Reading

/-! One slot of the stack: an entry, made of a number or of a reference to a shared buffer. -/
namespace ScriptStack

/-- What a slot shows at a moment: a number, or the bytes now in its buffer. -/
inductive Content where
  | number (value : Int)
  | bytes (data : Bytes)
  deriving DecidableEq, Repr

namespace Content

def logger : String := "scriptexec.script.entry"

def toBytes : Content → Bytes
  | number v => Number.encode v
  | bytes data => data

/-- Numbers are bounded from above only; bytes by their length, so from both sides. -/
def toNumber (minimal : Bool) : Content → Except Fault Int
  | number v => if Limits.maxSigned < v then .error (Fault.numberOverflow v).raised else .ok v
  | bytes data => Number.read data Number.defaultLimit minimal

def tooWideNumberText? (v : Int) : Option String := (Decimal.text? v).map fun shown =>
  "NumEntry " ++ shown ++ " does not fit in the " ++ Decimal.natText Limits.commitmentWidth ++
    "-byte stack commitment"

def tooWideBytesText (size : Nat) : String :=
  "BytesEntry of " ++ Decimal.natText size ++ " bytes does not fit in the stack commitment"

/-- Four bytes: the low word of a number, which wraps below zero, or the bytes and zeros after. -/
def commit : Content → Attempt Bytes
  | number v =>
    if Limits.maxUnsigned < v then .refuse logger (tooWideNumberText? v) (.numberTooWide v)
    else .done (Bytes.word Limits.commitmentWidth (v % (Limits.maxUnsigned + 1)).toNat)
  | bytes data =>
    if Limits.commitmentWidth < data.length then
      .refuse logger (some (tooWideBytesText data.length)) (.itemTooWide data)
    else .done (data.padTo Limits.commitmentWidth)

def isWritable : Content → Bool
  | number v => Decimal.isWritable v
  | bytes _ => true

def tagged : Content → String
  | number v => "n:" ++ Decimal.integerText v
  | bytes data => "b:" ++ data.hex

def display : Content → String
  | number v => "NumEntry(" ++ Decimal.integerText v ++ ")"
  | bytes data => "BytesEntry(" ++ data.hex ++ ")"

def display? (c : Content) : Option String := if c.isWritable then some c.display else none

end Content

namespace Operand

def content (h : Heap) : Operand → Content
  | number v => .number v
  | buffer b => .bytes (h.read b)

def kind : Operand → Kind
  | number _ => .numberEntry
  | buffer _ => .bytesEntry

def buffer? : Operand → Option BufferId
  | number _ => none
  | buffer b => some b

def number? : Operand → Option Int
  | number v => some v
  | buffer _ => none

end Operand

namespace Entry

def content (h : Heap) (e : Entry) : Content := (h.operand e).content h

def kind (h : Heap) (e : Entry) : Kind := (h.operand e).kind

def buffer? (h : Heap) (e : Entry) : Option BufferId := (h.operand e).buffer?

def number? (h : Heap) (e : Entry) : Option Int := (h.operand e).number?

def toBytes (h : Heap) (e : Entry) : Bytes := (e.content h).toBytes

def toNumber (h : Heap) (minimal : Bool) (e : Entry) : Except Fault Int :=
  (e.content h).toNumber minimal

def commit (h : Heap) (e : Entry) : Attempt Bytes := (e.content h).commit

def display (h : Heap) (e : Entry) : String := (e.content h).display

def display? (h : Heap) (e : Entry) : Option String := (e.content h).display?

def same (h : Heap) (e f : Entry) : Bool := e.content h == f.content h

def make (h : Heap) (o : Operand) : Heap × Entry := (h.addEntry o, h.nextEntry)

def ofNumber (h : Heap) (v : Int) : Heap × Entry := make h (.number v)

def ofBuffer (h : Heap) (b : BufferId) : Heap × Entry := make h (.buffer b)

def ofBytes (h : Heap) (data : Bytes) : Heap × Entry := ofBuffer (h.alloc data) h.next

def unique (h : Heap) (b : BufferId) : Heap × Entry := ofBytes h (h.read b)

end Entry

end ScriptStack
