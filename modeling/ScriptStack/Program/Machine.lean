import ScriptStack.Program.Table
import ScriptStack.Stack.Display
import ScriptStack.Stack.View
import ScriptStack.Value.Text

/-! The state of a program: its stacks and buffers, and the names it has given. -/
namespace ScriptStack

structure Machine where
  store : Store
  stackNames : Table StackId
  views : Table View
  registers : Table Value

namespace Machine

def mainStack : String := "s"

def empty : Machine := ⟨.empty, [], [], []⟩

def start : Machine := ⟨Store.empty.addStack .empty, [(mainStack, ⟨0⟩)], [], []⟩

def heap (m : Machine) : Heap := m.store.heap

def withHeap (m : Machine) (h : Heap) : Machine := { m with store := m.store.withHeap h }

def addReal (m : Machine) : Machine := { m with store := m.store.addReal }

def setStack (m : Machine) (id : StackId) (s : Stack) : Machine :=
  { m with store := m.store.setStack id s }

/-- Gives a new stack a name. An older stack of that name lives on where it is referred to. -/
def addStack (m : Machine) (name : String) (s : Stack) : Machine :=
  { m with store := m.store.addStack s, stackNames := m.stackNames.set name m.store.next }

def setView (m : Machine) (name : String) (v : View) : Machine :=
  { m with views := m.views.set name v }

def setRegister (m : Machine) (name : String) (v : Value) : Machine :=
  { m with registers := m.registers.set name v }

def dropNewer (m earlier : Machine) : Machine := { m with store := m.store.dropNewer earlier.store }

def known {α : Type} (found : Option α) : Attempt α :=
  found.elim (.fail (.misuse .unknownName)) .done

def stackId (m : Machine) (name : String) : Attempt StackId := known (m.stackNames.get? name)

def view (m : Machine) (name : String) : Attempt View := known (m.views.get? name)

def register (m : Machine) (name : String) : Attempt Value := known (m.registers.get? name)

end Machine

def Machine.shown (m : Machine) : List (String × List ShownSlot) :=
  m.stackNames.map fun (name, id) => (name, (m.store.stack id).shownSlots m.heap)

end ScriptStack
