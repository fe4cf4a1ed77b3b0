import ScriptStack.Stack.Basic

/-! All buffers and stacks of a program, and how many real numbers it has made. -/
namespace ScriptStack

structure StackId where
  index : Nat
  deriving DecidableEq, Repr

/-- Tells real numbers apart that were made one by one, though they may be worth the same. -/
structure RealId where
  index : Nat
  deriving DecidableEq, Repr

structure Store where
  heap : Heap
  stackCells : List Stack
  realCount : Nat
  deriving DecidableEq, Repr

namespace Store

def empty : Store := ⟨.empty, [], 0⟩

def stack (σ : Store) (id : StackId) : Stack := σ.stackCells[id.index]?.getD .empty

def next (σ : Store) : StackId := ⟨σ.stackCells.length⟩

def addStack (σ : Store) (s : Stack) : Store := { σ with stackCells := σ.stackCells ++ [s] }

def setStack (σ : Store) (id : StackId) (s : Stack) : Store :=
  { σ with stackCells := σ.stackCells.set id.index s }

def nextReal (σ : Store) : RealId := ⟨σ.realCount⟩

def addReal (σ : Store) : Store := { σ with realCount := σ.realCount + 1 }

def withHeap (σ : Store) (h : Heap) : Store := { σ with heap := h }

def dropNewer (σ earlier : Store) : Store :=
  ⟨σ.heap.dropNewer earlier.heap, σ.stackCells.take earlier.stackCells.length, earlier.realCount⟩

theorem stack_setStack_of_ne (σ : Store) {i j : StackId} (hne : j ≠ i) (s : Stack) :
    (σ.setStack i s).stack j = σ.stack j := by
  have : i.index ≠ j.index := fun e => hne (by cases i; cases j; simp_all)
  simp [stack, setStack, List.getElem?_set_ne this]

theorem stack_setStack_self {σ : Store} {id : StackId} (h : id.index < σ.stackCells.length)
    (s : Stack) : (σ.setStack id s).stack id = s := by
  simp [stack, setStack, h]

theorem setStack_stack (σ : Store) (id : StackId) : σ.setStack id (σ.stack id) = σ := by
  have hcells : σ.stackCells.set id.index (σ.stack id) = σ.stackCells := by
    by_cases h : id.index < σ.stackCells.length
    · simp [stack, h]
    · exact List.set_eq_of_length_le (Nat.not_lt.mp h)
  rw [setStack, hcells]

theorem stack_addStack_next (σ : Store) (s : Stack) : (σ.addStack s).stack σ.next = s := by
  simp [stack, addStack, next]

theorem stack_addStack_of_lt {σ : Store} {i : StackId} (h : i.index < σ.stackCells.length)
    (s : Stack) :
    (σ.addStack s).stack i = σ.stack i := by
  simp [stack, addStack, List.getElem?_append_left h]

end Store

end ScriptStack
