import ScriptStack.Value.Basic

/-! Values as script numbers and as encodings of them. -/
namespace ScriptStack.Value

/-- Whatever equals zero has the encoding of zero. Only integers have another one; a number of
another sort lacks the bits that it would be made of, and a negative script number a negation. -/
def encode : Value → Except Misuse Bytes
  | integer v => .ok (Number.encode v)
  | flag b => .ok (Number.encode (Quantity.flagValue b))
  | real x _ => if x.compareInt? 0 = some .eq then .ok [] else .error .noMember
  | number n =>
    if n.value = 0 then .ok []
    else if 0 < n.value then .error .noMember else .error .wrongKind
  | _ => .error .wrongKind

def lowByte (v : Value) : Except Misuse UInt8 :=
  match v.index? with
  | some i => .ok (UInt8.ofNat (i % 256).toNat)
  | none => .error .wrongKind

def isMinimalReversed : List Value → Except Misuse Bool
  | [] => .ok true
  | last :: before => do
    let l ← last.lowByte
    if Number.isMinimal [l] then .ok true
    else match before with
      | [] => .ok false
      | b :: _ => do .ok (Number.isMinimal [← b.lowByte, l])

def isMinimal (h : Heap) (v : Value) : Except Misuse Bool :=
  match v.octets? h, v with
  | some data, _ => .ok (Number.isMinimal data)
  | none, list items => isMinimalReversed items.reverse
  | none, text s => if s.isEmpty then .ok true else .error .wrongKind
  | none, _ => .error .wrongKind

/-- A list is held to the limit by its length, then to minimality, and only then read as bytes. -/
def readList (limit : Quantity) (minimal : Bool) (items : List Value) : Except Fault Int := do
  Number.checkSize limit items.length
  if minimal && !(← Misuse.lift (isMinimalReversed items.reverse)) then
    .error (.notMinimal (← Misuse.lift (byteList items)))
  else
    .ok (Number.decode (← Misuse.lift (byteList items)))

def readNumber (h : Heap) (limit : Quantity) (minimal : Bool) (v : Value) : Except Fault Int :=
  match v.octets? h, v with
  | some data, _ => Number.read data limit minimal
  | none, list items => readList limit minimal items
  | none, text s => do
    Number.checkSize limit s.length
    if s.isEmpty then .ok 0 else .error (.misuse .wrongKind)
  | none, _ => .error (.misuse .wrongKind)

def decode (v : Value) (h : Heap) (limit : Value) (minimal : Bool) : Except Fault Int := do
  v.readNumber h (← Misuse.lift limit.quantity) minimal

def newNumber (v : Value) : Except Fault ScriptNumber :=
  match v with
  | integer v => .ok (.ofInt v)
  | _ => .error .notInteger

def decodeNumber (v : Value) (h : Heap) (limit : Value) (minimal : Bool) :
    Except Fault ScriptNumber := do
  let n ← v.decode h limit minimal
  let data ← Misuse.lift (v.replacementBytes h)
  .ok (.remember n data)

def comparand (h : Heap) : Value → Comparand
  | number n => .integer n.value
  | integer v => .integer v
  | flag b => .integer (Quantity.flagValue b)
  | bytes data => .encoded data
  | byteArray b => .encoded (h.read b)
  | v => .other (v.kind h)

end ScriptStack.Value
