import ScriptStack.Program.Machine
import ScriptStack.Value.Member
import ScriptStack.Value.Number

/-! Terms: how a program writes down the values that it works with. -/
namespace ScriptStack

inductive Term where
  | malformed (cause : Misuse)
  | nothing
  | flag (b : Bool)
  | integer (v : Int)
  | text (s : String)
  | real (x : Binary64)
  | bytes (data : Bytes)
  | memory (data : Bytes)
  | byteArray (data : Bytes)
  | list (items : List Term)
  | scriptNumber (value : Term)
  | numberEntry (value : Term)
  | bytesEntry (contents : Term)
  | peek (offset : Term) (stack : String)
  | register (name : String)
  | bufferOf (entry : Term)
  | stack (name : String)

instance : Inhabited Term := ⟨.nothing⟩

namespace Term

def defaultOffset : Term := .integer (-1)

def defaultLimit : Term := .integer Limits.numberBytes

def ofPlain (m : Machine) (v : Value) : Attempt (Machine × Value) := .done (m, v)

def newEntry (m : Machine) (made : Heap × Entry) : Attempt (Machine × Value) :=
  .done (m.withHeap made.1, .entry made.2)

def newNumberEntry (m : Machine) (v : Value) : Attempt (Machine × Value) :=
  match v.integer? m.heap with
  | .ok v => newEntry m (Entry.ofNumber m.heap v)
  | .error kind => .fail (.numberExpected kind)

/-- A reference to the byte array itself, not to a copy. -/
def wrap (m : Machine) (v : Value) : Attempt (Machine × Value) :=
  match v with
  | .byteArray b => newEntry m (Entry.ofBuffer m.heap b)
  | v => .fail (.bufferExpected (v.kind m.heap))

mutual

def eval (m : Machine) : Term → Attempt (Machine × Value)
  | malformed cause => .fail (.misuse cause)
  | nothing => ofPlain m .nothing
  | flag b => ofPlain m (.flag b)
  | integer v => ofPlain m (.integer v)
  | text s => ofPlain m (.text s)
  | real x => .done (m.addReal, .real x m.store.nextReal)
  | bytes data => ofPlain m (.bytes data)
  | memory data => ofPlain m (.memory data)
  | byteArray data => .done (m.withHeap (m.heap.alloc data), .byteArray m.heap.next)
  | list items => (evalAll m items).bind fun (m, vs) => .done (m, .list vs)
  | scriptNumber value => (eval m value).bind fun (m, v) =>
    (Attempt.ofExcept v.newNumber).bind fun n => .done (m, .number n)
  | numberEntry value => (eval m value).bind fun (m, v) => newNumberEntry m v
  | bytesEntry contents => (eval m contents).bind fun (m, v) =>
    (Attempt.ofGiven (v.newBytes m.heap)).bind fun data =>
      newEntry m (Entry.ofBytes m.heap data)
  | peek offset name => (m.stackId name).bind fun id =>
    (eval m offset).bind fun (m, v) =>
      ((m.store.stack id).top (v.position m.store)).bind fun e => .done (m, .entry e)
  | register name => (m.register name).bind fun v => .done (m, v)
  | bufferOf entry => (eval m entry).bind fun (m, v) =>
    (Attempt.ofGiven (v.asBuffer m.heap)).bind fun b => .done (m, .byteArray b)
  | stack name => (m.stackId name).bind fun id => .done (m, .stack id)

def evalAll (m : Machine) : List Term → Attempt (Machine × List Value)
  | [] => .done (m, [])
  | t :: rest => (eval m t).bind fun (m, v) =>
    (evalAll m rest).bind fun (m, vs) => .done (m, v :: vs)

end

end Term

end ScriptStack
