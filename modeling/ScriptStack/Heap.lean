import ScriptStack.Bytes.Hex

/-! Byte buffers and entries. Each is named by its identity; who holds the same identity sees the
same bytes, or the same entry. Identities are given out in order and never reused. -/
namespace ScriptStack

structure BufferId where
  index : Nat
  deriving DecidableEq, Repr

/-- What an entry is made of: a number, or a reference to a shared buffer. It is fixed for good. -/
inductive Operand where
  | number (value : Int)
  | buffer (id : BufferId)
  deriving DecidableEq, Repr

/-- The identity of an entry. Two entries may be made of the same operand and still be two. -/
structure Entry where
  index : Nat
  deriving DecidableEq, Repr

structure Heap where
  cells : List Bytes
  operands : List Operand
  deriving DecidableEq, Repr

namespace Heap

def empty : Heap := ⟨[], []⟩

def next (h : Heap) : BufferId := ⟨h.cells.length⟩

def read (h : Heap) (b : BufferId) : Bytes := h.cells[b.index]?.getD []

def alloc (h : Heap) (data : Bytes) : Heap := { h with cells := h.cells ++ [data] }

def write (h : Heap) (b : BufferId) (data : Bytes) : Heap :=
  { h with cells := h.cells.set b.index data }

def nextEntry (h : Heap) : Entry := ⟨h.operands.length⟩

def operand (h : Heap) (e : Entry) : Operand := h.operands[e.index]?.getD (.number 0)

def addEntry (h : Heap) (o : Operand) : Heap := { h with operands := h.operands ++ [o] }

/-- Without what has been made since an earlier moment. What there was then is as it is now. -/
def dropNewer (h earlier : Heap) : Heap :=
  ⟨h.cells.take earlier.cells.length, h.operands.take earlier.operands.length⟩

def Holds (h : Heap) (b : BufferId) : Prop := b.index < h.cells.length

def HasEntry (h : Heap) (e : Entry) : Prop := e.index < h.operands.length

theorem read_alloc_next (h : Heap) (data : Bytes) : (h.alloc data).read h.next = data := by
  simp [read, alloc, next]

theorem read_alloc_of_holds {h : Heap} {b : BufferId} (hb : h.Holds b) (data : Bytes) :
    (h.alloc data).read b = h.read b := by
  simp only [Holds] at hb
  simp [read, alloc, List.getElem?_append_left hb]

theorem read_write_self {h : Heap} {b : BufferId} (hb : h.Holds b) (data : Bytes) :
    (h.write b data).read b = data := by
  simp only [Holds] at hb
  simp [read, write, hb]

theorem read_write_of_ne (h : Heap) {b c : BufferId} (hne : c ≠ b) (data : Bytes) :
    (h.write b data).read c = h.read c := by
  have : b.index ≠ c.index := fun e => hne (by cases b; cases c; simp_all)
  simp [read, write, List.getElem?_set_ne this]

theorem holds_alloc {h : Heap} {b : BufferId} (data : Bytes) (hb : h.Holds b) :
    (h.alloc data).Holds b := by
  simp only [Holds, alloc, List.length_append] at *
  omega

theorem holds_write {h : Heap} {b c : BufferId} (data : Bytes) :
    (h.write c data).Holds b ↔ h.Holds b := by
  simp [Holds, write]

theorem not_holds_next (h : Heap) : ¬ h.Holds h.next := by simp [Holds, next]

end Heap

end ScriptStack
