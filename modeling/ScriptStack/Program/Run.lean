import ScriptStack.Program.Call
import ScriptStack.Value.Equality

/-! Running programs: instructions one after another, each failing or not on its own. -/
namespace ScriptStack

inductive Instruction where
  | create (stack : String)
  | seed (stack : String) (buffers : Term)
  | onStack (stack : String) (call : StackCall)
  | takeView (stack view : String)
  | readView (view : String) (query : ViewQuery)
  | evaluate (value : Term)
  | wrap (buffer : Term)
  | share (entry : Term)
  | makeUnique (entry : Term)
  | isShared (entry other : Term)
  | entryBytes (entry : Term)
  | entryNumber (entry : Term) (minimal : Bool)
  | entryCommit (entry : Term)
  | entryValue (entry : Term)
  | entryDisplay (entry : Term)
  | equal (left right : Term)
  | setSize (items : Term)
  | readBuffer (entry : Term)
  | edit (entry : Term) (call : EditCall)

structure Step where
  instruction : Instruction
  into : Option String

def Instruction.hasResult : Instruction → Bool
  | create _ => false
  | seed _ _ => false
  | takeView _ _ => false
  | readView _ _ => false
  | readBuffer _ => false
  | edit _ _ => false
  | _ => true

def Answer.value : Answer → Value
  | .nothing => .nothing
  | .flag b => .flag b
  | .integer n => .integer n
  | .bytes data => .bytes data
  | .text s => .text s
  | .entry e => .entry e
  | .table rows =>
    .list (rows.map fun (i, c) => .list [.integer i, .text c.tagged])

namespace Machine

/-- Evaluates what an action is given, and then acts. Evaluation makes things and changes none. A fault
of the action leaves what there was as the action has left it; what has been made since is lost, as
nothing refers to it. -/
def after {α : Type} (m : Machine) (given : Attempt (Machine × α))
    (act : Machine → α → Machine × Attempt Value) : Machine × Attempt Value :=
  match given.result with
  | .error fault => (m, ⟨given.log, .error fault⟩)
  | .ok (k, a) =>
    let (n, x) := act k a
    let log := given.log ++ x.log
    match x.result with
    | .ok v => (n, ⟨log, .ok v⟩)
    | .error fault => (n.dropNewer m, ⟨log, .error fault⟩)

def settle (m : Machine) (x : Attempt (Machine × Value)) : Machine × Attempt Value :=
  m.after x fun k v => (k, .done v)

/-- Runs an operation on one stack. The heap and the stack are what the operation leaves, also where
it fails. -/
def runOp (m : Machine) (id : StackId) (op : StackOp) : Machine × Attempt Value :=
  let o := op.run m.heap (m.store.stack id)
  ((m.withHeap o.heap).setStack id o.stack, o.attempt.map Answer.value)

def runStackOp (m : Machine) (id : StackId) (x : Attempt (Machine × StackOp)) :
    Machine × Attempt Value :=
  m.after x fun m op => m.runOp id op

def runOnStack (m : Machine) (name : String) (call : StackCall) : Machine × Attempt Value :=
  let found := m.stackId name
  match found.result with
  | .ok id => m.runStackOp id (call.resolve m)
  | .error fault => (m, .fail fault)

def reply (m : Machine) (v : Value) : Attempt (Machine × Value) := .done (m, v)

def seedItems (m : Machine) (buffers : Term) : Attempt (Machine × List Value) :=
  (buffers.eval m).bind fun (m, v) =>
    (Attempt.ofGiven (v.items m.heap)).bind fun items => .done (m, items)

/-- The stack gets its name last; without it, the buffers that were made are there all the same. -/
def seedNamed (m : Machine) (name : String) (items : List Value) : Machine × Attempt Value :=
  let (h, x) := Stack.seed m.heap (items.map (Value.newBytes m.heap))
  match x.result with
  | .ok s => ((m.withHeap h).addStack name s, ⟨x.log, .ok .nothing⟩)
  | .error fault => (m.withHeap h, ⟨x.log, .error fault⟩)

def seedStack (m : Machine) (name : String) (buffers : Term) : Machine × Attempt Value :=
  m.after (m.seedItems buffers) fun m items => m.seedNamed name items

def takeView (m : Machine) (stack view : String) : Attempt (Machine × Value) :=
  (m.stackId stack).bind fun id =>
    let v := View.ofStack (m.store.stack id)
    (m.setView view v).reply (.integer v.size)

def readView (m : Machine) (name : String) (query : ViewQuery) : Attempt (Machine × Value) :=
  (m.view name).bind fun view =>
    match query with
    | .items => m.reply (.list ((view.items m.heap).map .bytes))
    | .itemsReversed => m.reply (.list ((view.itemsReversed m.heap).map .bytes))
    | .size => m.reply (.integer view.size)
    | .item index => (index.eval m).bind fun (m, v) =>
      (Attempt.ofGiven v.index).bind fun i =>
        match view.item? m.heap i with
        | some data => m.reply (.bytes data)
        | none => .fail (.misuse .noIndex)

def withEntry (m : Machine) (t : Term) (f : Machine → Entry → Attempt (Machine × Value)) :
    Attempt (Machine × Value) :=
  (t.eval m).bind fun (m, v) => (Attempt.ofGiven v.asEntry).bind fun e => f m e

def withBuffer {α : Type} (m : Machine) (t : Term)
    (f : Machine → BufferId → Attempt (Machine × α)) : Attempt (Machine × α) :=
  (t.eval m).bind fun (m, v) => (Attempt.ofGiven (v.asBuffer m.heap)).bind fun b => f m b

def share (m : Machine) (b : BufferId) : Attempt (Machine × Value) :=
  Term.newEntry m (Entry.ofBuffer m.heap b)

def makeUnique (m : Machine) (b : BufferId) : Attempt (Machine × Value) :=
  Term.newEntry m (Entry.unique m.heap b)

def ask {α : Type} (m : Machine) (t : Term) (question : Machine → Value → Except Misuse α)
    (answer : α → Value) : Attempt (Machine × Value) :=
  (t.eval m).bind fun (m, v) =>
    (Attempt.ofGiven (question m v)).bind fun a => m.reply (answer a)

def commitValue (m : Machine) : Value → Machine × Attempt Value
  | .entry e => (m, (e.commit m.heap).map .bytes)
  | .stack id => m.runOp id .commit
  | _ => (m, .fail (.misuse .noMember))

def compareBuffers (m : Machine) (entry other : Term) : Attempt (Machine × Value) :=
  m.withBuffer entry fun m b => m.withBuffer other fun m c => m.reply (.flag (b == c))

def compareValues (m : Machine) (left right : Term) : Attempt (Machine × Value) :=
  (left.eval m).bind fun (m, v) => (right.eval m).bind fun (m, w) =>
    (Attempt.ofExcept (v.same m.store w)).bind fun b => m.reply (.list [.flag b, .flag !b])

def countDistinct (m : Machine) (items : Term) : Attempt (Machine × Value) :=
  (items.eval m).bind fun (m, v) =>
    (Attempt.ofGiven (v.items m.heap)).bind fun vs =>
      (Attempt.ofExcept (Value.setSize m.store vs)).bind fun n => m.reply (.integer n)

def editAnswer (effect : Edit.Effect) : Value :=
  match effect.removed with
  | some b => .integer b.toNat
  | none => .bytes effect.data

def editGiven (m : Machine) (entry : Term) (call : EditCall) :
    Attempt (Machine × BufferId × Edit) :=
  m.withBuffer entry fun m b => (call.resolve m).bind fun (m, edit) => .done (m, b, edit)

def applyEdit (m : Machine) (b : BufferId) (edit : Edit) : Machine × Attempt Value :=
  match edit.apply (m.heap.read b) with
  | .ok effect => (m.withHeap (m.heap.write b effect.data), .done (editAnswer effect))
  | .error cause => (m, .fail (.misuse cause))

def editBuffer (m : Machine) (entry : Term) (call : EditCall) : Machine × Attempt Value :=
  m.after (m.editGiven entry call) fun m (b, edit) => m.applyEdit b edit

def runInstruction (m : Machine) : Instruction → Machine × Attempt Value
  | .create name => m.settle ((m.addStack name .empty).reply .nothing)
  | .seed name buffers => m.seedStack name buffers
  | .onStack name call => m.runOnStack name call
  | .takeView stack view => m.settle (m.takeView stack view)
  | .readView view query => m.settle (m.readView view query)
  | .evaluate value => m.settle ((value.eval m).bind fun (m, v) => m.reply v)
  | .wrap buffer => m.settle ((buffer.eval m).bind fun (m, v) => Term.wrap m v)
  | .share entry => m.settle (m.withBuffer entry share)
  | .makeUnique entry => m.settle (m.withBuffer entry makeUnique)
  | .isShared entry other => m.settle (m.compareBuffers entry other)
  | .entryBytes entry => m.settle (m.ask entry (fun m v => v.asBytes m.heap) .bytes)
  | .entryNumber entry minimal => m.settle (m.withEntry entry fun m e =>
    (Attempt.ofExcept (e.toNumber m.heap minimal)).bind fun n => m.reply (.integer n))
  | .entryCommit entry => m.after (entry.eval m) commitValue
  | .entryValue entry => m.settle (m.ask entry (fun m v => v.asInteger m.heap) .integer)
  | .entryDisplay entry => m.settle ((entry.eval m).bind fun (m, v) =>
    (Attempt.ofText (v.display? m.store)).bind fun shown => m.reply (.text shown))
  | .equal left right => m.settle (m.compareValues left right)
  | .setSize items => m.settle (m.countDistinct items)
  | .readBuffer entry => m.settle (m.withBuffer entry fun m b => m.reply (.bytes (m.heap.read b)))
  | .edit entry call => m.editBuffer entry call

def keep (into : Option String) : Machine × Attempt Value → Machine × Attempt Value
  | (m, x) =>
    match into, x.result with
    | some name, .ok v => (m.setRegister name v, x)
    | _, _ => (m, x)

def step (m : Machine) (s : Step) : Machine × Attempt Value :=
  keep (if s.instruction.hasResult then s.into else none) (m.runInstruction s.instruction)

def trace (m : Machine) : List Step → List (Machine × Attempt Value)
  | [] => []
  | s :: rest => m.step s :: trace (m.step s).1 rest

def run (m : Machine) : List Step → Machine
  | [] => m
  | s :: rest => run (m.step s).1 rest

end Machine

end ScriptStack
