import ScriptStack.Program.Machine
import ScriptStack.Proofs.Heap.Growth

/-! What a program holds on to: the entries, buffers and stacks that its names lead to. A machine is
sound when all of them exist, and the buffers of all entries too. -/
namespace ScriptStack

inductive Reference where
  | entry (e : Entry)
  | buffer (b : BufferId)
  | stack (id : StackId)

namespace Value

mutual

def references : Value → List Reference
  | .entry e => [.entry e]
  | .byteArray b => [.buffer b]
  | .stack id => [.stack id]
  | .list items => allReferences items
  | _ => []

def allReferences : List Value → List Reference
  | [] => []
  | v :: rest => v.references ++ allReferences rest

end

end Value

def Store.Has (σ : Store) : Reference → Prop
  | .entry e => σ.heap.HasEntry e
  | .buffer b => σ.heap.Holds b
  | .stack id => id.index < σ.stackCells.length

structure Store.Persists (σ σ' : Store) : Prop where
  heap : σ.heap.Persists σ'.heap
  cells : σ.stackCells.length ≤ σ'.stackCells.length

theorem Store.Persists.refl (σ : Store) : σ.Persists σ := ⟨.refl _, Nat.le_refl _⟩

theorem Store.Persists.trans {σ τ υ : Store} (hτ : σ.Persists τ) (hυ : τ.Persists υ) :
    σ.Persists υ :=
  ⟨hτ.heap.trans hυ.heap, Nat.le_trans hτ.cells hυ.cells⟩

theorem Store.Persists.has {σ σ' : Store} (hp : σ.Persists σ') {r : Reference} (hr : σ.Has r) :
    σ'.Has r := by
  cases r with
  | entry e => exact hp.heap.hasEntry hr
  | buffer b => exact hp.heap.holds hr
  | stack id => exact Nat.lt_of_lt_of_le hr hp.cells

namespace Machine

/-- What a program can get at: through a stack, a view, a variable, or the name of a stack. -/
inductive Reaches (m : Machine) : Reference → Prop where
  | slot {id : StackId} {e : Entry} (he : e ∈ (m.store.stack id).entries) : Reaches m (.entry e)
  | item {name : String} {view : View} {e : Entry} (hv : m.views.get? name = some view)
      (he : e ∈ view.entries) : Reaches m (.entry e)
  | held {name : String} {v : Value} {r : Reference} (hv : m.registers.get? name = some v)
      (hr : r ∈ v.references) : Reaches m r
  | named {name : String} {id : StackId} (hn : m.stackNames.get? name = some id) :
      Reaches m (.stack id)

structure Sound (m : Machine) : Prop where
  closed : m.heap.Closed
  has : ∀ r, m.Reaches r → m.store.Has r

theorem sound_start : start.Sound := by
  refine ⟨fun e b he => ?_, fun r hr => ?_⟩
  · simp [start, heap, Store.addStack, Store.empty, Heap.empty, Heap.operand] at he
  · cases hr with
    | slot he =>
      rename_i id e
      obtain ⟨_ | i⟩ := id <;>
        simp [start, Store.addStack, Store.empty, Store.stack, Stack.empty] at he
    | item hv => simp [start, Table.get?] at hv
    | held hv => simp [start, Table.get?] at hv
    | named hn =>
      simp only [start, Table.get?] at hn
      split at hn
      · cases hn
        exact Nat.zero_lt_one
      · cases hn

/-- Evaluation makes buffers and entries, and leaves all else as it is. -/
structure Widens (m m' : Machine) : Prop where
  heap : m.heap.Grows m'.heap
  cells : m'.store.stackCells = m.store.stackCells
  names : m'.stackNames = m.stackNames
  views : m'.views = m.views
  registers : m'.registers = m.registers

theorem Widens.refl (m : Machine) : m.Widens m := ⟨.refl _, rfl, rfl, rfl, rfl⟩

theorem Widens.trans {m n o : Machine} (hn : m.Widens n) (ho : n.Widens o) : m.Widens o where
  heap := hn.heap.trans ho.heap
  cells := ho.cells.trans hn.cells
  names := ho.names.trans hn.names
  views := ho.views.trans hn.views
  registers := ho.registers.trans hn.registers

theorem widens_withHeap {m : Machine} {h : Heap} (hg : m.heap.Grows h) : m.Widens (m.withHeap h) :=
  ⟨hg, rfl, rfl, rfl, rfl⟩

theorem Widens.stack {m m' : Machine} (hw : m.Widens m') (id : StackId) :
    m'.store.stack id = m.store.stack id := by
  rw [Store.stack, Store.stack, hw.cells]

theorem Widens.persists {m m' : Machine} (hw : m.Widens m') : m.store.Persists m'.store :=
  ⟨hw.heap.toPersists, Nat.le_of_eq (by rw [hw.cells])⟩

theorem Widens.dropNewer {m m' : Machine} (hw : m.Widens m') : m'.dropNewer m = m := by
  obtain ⟨hheap, hcells, hnames, hviews, hregisters⟩ := hw
  have hstore : m'.store.dropNewer m.store = m.store := by
    rw [Store.dropNewer, show m'.store.heap.dropNewer m.store.heap = m.store.heap from
      hheap.dropNewer, hcells, List.take_length]
  rw [Machine.dropNewer, hstore, hnames, hviews, hregisters]

theorem Widens.dropNewer_setStack {m m' : Machine} (hw : m.Widens m') (id : StackId) (s : Stack) :
    (m'.setStack id s).dropNewer m = m.setStack id s := by
  have hsame : (m'.setStack id s).dropNewer m = (m'.dropNewer m).setStack id s := by
    simp only [Machine.dropNewer, Machine.setStack, Store.dropNewer, Store.setStack, List.take_set]
  rw [hsame, hw.dropNewer]

theorem Widens.reaches {m m' : Machine} (hw : m.Widens m') {r : Reference} :
    m'.Reaches r ↔ m.Reaches r := by
  constructor
  · intro hr
    cases hr with
    | slot he => exact .slot (hw.stack _ ▸ he)
    | item hv he => exact .item (hw.views ▸ hv) he
    | held hv hr => exact .held (hw.registers ▸ hv) hr
    | named hn => exact .named (hw.names ▸ hn)
  · intro hr
    cases hr with
    | slot he => exact .slot (hw.stack _ ▸ he)
    | item hv he => exact .item (hw.views.symm ▸ hv) he
    | held hv hr => exact .held (hw.registers.symm ▸ hv) hr
    | named hn => exact .named (hw.names.symm ▸ hn)

end Machine

end ScriptStack
