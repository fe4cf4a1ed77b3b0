import ScriptStack.Bytes.Hex
import ScriptStack.Fault
import ScriptStack.Index

/-! Changes made to a buffer in place. -/
namespace ScriptStack

inductive Edit where
  | set (index : Except Misuse Int) (byte : Except Misuse UInt8)
  | append (byte : Except Misuse UInt8)
  | insert (index : Except Misuse Int) (byte : Except Misuse UInt8)
  | pop (index : Except Misuse Int)
  | delete (start stop : Except Misuse (Option Int))
  | extend (data : Except Misuse Bytes)
  | assign (data : Except Misuse Bytes)
  | clear

namespace Edit

structure Effect where
  data : Bytes
  removed : Option UInt8
  deriving DecidableEq, Repr

def kept (data : Bytes) : Effect := ⟨data, none⟩

def wordIndex (otherwise : Misuse) (index : Int) : Except Misuse Int :=
  if Index.fitsWord index then .ok index else .error otherwise

/-- The byte is looked at before the index is compared with the size. -/
def setAt (data : Bytes) (index : Except Misuse Int) (byte : Except Misuse UInt8) :
    Except Misuse Effect := do
  let i ← wordIndex .noIndex (← index)
  let b ← byte
  match Index.place? data.length i with
  | some i => .ok (kept (data.set i b))
  | none => .error .noIndex

def insertAt (data : Bytes) (index : Except Misuse Int) (byte : Except Misuse UInt8) :
    Except Misuse Effect := do
  let i ← wordIndex .tooLarge (← index)
  let b ← byte
  let i := Index.gap data.length i
  .ok (kept (data.take i ++ b :: data.drop i))

def popAt (data : Bytes) (index : Except Misuse Int) : Except Misuse Effect := do
  let i ← wordIndex .tooLarge (← index)
  match Index.place? data.length i with
  | some i => .ok ⟨data.eraseIdx i, data[i]?⟩
  | none => .error .noIndex

def deleteRange (data : Bytes) (start stop : Option Int) : Effect :=
  let a := (start.map (Index.gap data.length)).getD 0
  let z := (stop.map (Index.gap data.length)).getD data.length
  kept (if a < z then data.take a ++ data.drop z else data)

def apply (data : Bytes) : Edit → Except Misuse Effect
  | set index byte => setAt data index byte
  | append byte => byte.map fun b => kept (data ++ [b])
  | insert index byte => insertAt data index byte
  | pop index => popAt data index
  | delete start stop => do .ok (deleteRange data (← start) (← stop))
  | extend more => more.map fun more => kept (data ++ more)
  | assign more => more.map kept
  | clear => .ok (kept [])

end Edit

end ScriptStack
