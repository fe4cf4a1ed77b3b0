import ScriptStack.Index
import ScriptStack.Stack.Basic

/-! Views: the entries of a stack at one moment, read as bytes at any later one. -/
namespace ScriptStack

structure View where
  entries : List Entry
  deriving DecidableEq, Repr

namespace View

def ofStack (s : Stack) : View := ⟨s.slots⟩

def size (v : View) : Nat := v.entries.length

def items (h : Heap) (v : View) : List Bytes := v.entries.map (Entry.toBytes h)

def itemsReversed (h : Heap) (v : View) : List Bytes := v.entries.reverse.map (Entry.toBytes h)

def item? (h : Heap) (v : View) (index : Int) : Option Bytes :=
  (Index.place? v.size index).bind fun i => v.entries[i]?.map (Entry.toBytes h)

theorem mem_ofStack {s : Stack} {e : Entry} : e ∈ (ofStack s).entries ↔ e ∈ s.entries :=
  List.mem_reverse

theorem items_reverse (h : Heap) (v : View) : v.itemsReversed h = (v.items h).reverse := by
  simp [itemsReversed, items, List.map_reverse]

end View

end ScriptStack
