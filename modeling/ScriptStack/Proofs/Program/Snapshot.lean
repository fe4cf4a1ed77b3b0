import ScriptStack.Proofs.Program.Preservation
import ScriptStack.Proofs.Program.Sequence
import ScriptStack.Proofs.Stack.Alike

/-! Views as snapshots: the entries are those of the moment at which the view was taken, and their
bytes those of the moment at which it is read. -/
namespace ScriptStack

namespace View

variable {h : Heap} {v : View} {index : Int}

theorem item?_of_items {i : Nat} {data : Bytes} (hdata : (v.items h)[i]? = some data)
    (hindex : index = i ∨ index = i - (v.items h).length) : v.item? h index = some data := by
  obtain ⟨hi, _⟩ := List.getElem?_eq_some_iff.mp hdata
  rw [item?_eq, Index.place?_eq_some_iff.mpr ⟨hi, hindex⟩]
  exact hdata

theorem item?_of_outside (hindex : index < -(v.items h).length ∨ (v.items h).length ≤ index) :
    v.item? h index = none := by
  rw [item?_eq, Index.place?_eq_none_iff.mpr hindex]
  rfl

theorem items_of_grows {k : Heap} (hg : h.Grows k) (hc : h.Closed)
    (hv : ∀ e ∈ v.entries, h.HasEntry e) : v.items k = v.items h :=
  List.map_congr_left fun e he => Entry.toBytes_of_grows hg hc (hv e he)

end View

namespace Machine

variable {m n : Machine} {name : String} {view : View}

/-- The view of this name answers as the list of these byte strings does: its length, its items in
both directions, and the item at any integer. -/
structure Presents (m : Machine) (name : String) (shown : List Bytes) : Prop where
  size : ∀ into, (m.step ⟨.readView name .size, into⟩).2.result = .ok (.integer shown.length)
  items : ∀ into, (m.step ⟨.readView name .items, into⟩).2.result =
    .ok (.list (shown.map .bytes))
  reversed : ∀ into, (m.step ⟨.readView name .itemsReversed, into⟩).2.result =
    .ok (.list (shown.reverse.map .bytes))
  item : ∀ (t : Term) (k : Machine) (v : Value) (index : Int) (i : Nat) (data : Bytes) into,
    (t.eval m).result = .ok (k, v) → v.index? = some index → shown[i]? = some data →
    (index = i ∨ index = i - shown.length) →
    (m.step ⟨.readView name (.item t), into⟩).2.result = .ok (.bytes data)
  outside : ∀ (t : Term) (k : Machine) (v : Value) (index : Int) into,
    (t.eval m).result = .ok (k, v) → v.index? = some index →
    (index < -shown.length ∨ shown.length ≤ index) →
    (m.step ⟨.readView name (.item t), into⟩).2.result = .error (.misuse .noIndex)

theorem readView_widens (m : Machine) (name : String) (query : ViewQuery) (into : Option String) :
    m.Widens (m.step ⟨.readView name query, into⟩).1 := by
  rw [step_of_no_result rfl, runInstruction]
  cases hx : (m.readView name query).result with
  | ok y =>
    rw [(settle_ok hx).1]
    exact (readView_leads hx).widens
  | error fault =>
    rw [(settle_error hx).1]
    exact .refl m

theorem view_eq_done (hview : m.views.get? name = some view) : m.view name = .done view := by
  rw [Machine.view, hview]
  rfl

theorem result_readView_of_ok {query : ViewQuery} {k : Machine} {v : Value}
    (h : (m.readView name query).result = .ok (k, v)) (into : Option String) :
    (m.step ⟨.readView name query, into⟩).2.result = .ok v := by
  rw [step_of_no_result rfl]
  exact (settle_ok h).2

theorem result_readView_of_error {query : ViewQuery} {fault : Fault}
    (h : (m.readView name query).result = .error fault) (into : Option String) :
    (m.step ⟨.readView name query, into⟩).2.result = .error fault := by
  rw [step_of_no_result rfl]
  exact (settle_error h).2

theorem readView_item {t : Term} {k : Machine} {v : Value} {index : Int}
    (hview : m.views.get? name = some view) (ht : (t.eval m).result = .ok (k, v))
    (hindex : v.index? = some index) : (m.readView name (.item t)).result =
      (view.item? k.heap index).elim (.error (.misuse .noIndex)) fun data => .ok (k, .bytes data) := by
  have hplace : v.index = .ok index := by rw [Value.index, hindex]; rfl
  rw [readView, view_eq_done hview, Attempt.done_bind, Attempt.result_bind_of_ok ht,
    Attempt.result_bind_of_ok (Attempt.result_ofGiven_eq_ok.mpr hplace)]
  cases view.item? k.heap index <;> rfl

theorem Sound.presents (hm : m.Sound) (hview : m.views.get? name = some view) :
    m.Presents name (view.items m.heap) := by
  -- an index may make entries on its way, so the item is read in a heap that has grown
  have hitems : ∀ (t : Term) (k : Machine) (v : Value), (t.eval m).result = .ok (k, v) →
      view.items k.heap = view.items m.heap := fun t k v ht =>
    View.items_of_grows (Term.eval_leads m k v t ht).widens.heap hm.closed
      fun e he => hm.has _ (.item hview he)
  constructor
  · intro into
    refine result_readView_of_ok (k := m) ?_ into
    rw [readView, view_eq_done hview, Attempt.done_bind, View.items, List.length_map]
    rfl
  · intro into
    refine result_readView_of_ok (k := m) ?_ into
    rw [readView, view_eq_done hview, Attempt.done_bind]
    rfl
  · intro into
    refine result_readView_of_ok (k := m) ?_ into
    rw [readView, view_eq_done hview, Attempt.done_bind, ← View.items_reverse]
    rfl
  · intro t k v index i data into ht hindex hdata hplace
    rw [← hitems t k v ht] at hdata hplace
    refine result_readView_of_ok (k := k) ?_ into
    rw [readView_item hview ht hindex, View.item?_of_items hdata hplace]
    rfl
  · intro t k v index into ht hindex hplace
    rw [← hitems t k v ht] at hplace
    refine result_readView_of_error ?_ into
    rw [readView_item hview ht hindex, View.item?_of_outside hplace]
    rfl

theorem step_takeView {stack : String} {id : StackId} (hid : m.stackNames.get? stack = some id)
    (name : String) (into : Option String) : let taken := m.step ⟨.takeView stack name, into⟩
    taken.1 = m.setView name (.ofStack (m.store.stack id)) ∧
      taken.2.result = .ok (.integer (m.sequences id).length) := by
  have hdone : (m.takeView stack name).result =
      .ok (m.setView name (.ofStack (m.store.stack id)), .integer (m.sequences id).length) := by
    rw [takeView, stackId, hid]
    rfl
  intro taken
  have htaken : taken = m.settle (m.takeView stack name) := step_of_no_result rfl into
  rw [htaken]
  exact settle_ok hdone

/-- A view is a snapshot of the entries with live bytes. Whatever is done after it was taken, so long as
no other view takes its name, it answers as the list of the entries of that moment, shown with the
buffers as they are now; and reading a view changes nothing that there was. -/
theorem view_snapshot (program later : List Step) (stack name : String) (id : StackId)
    (into : Option String) (hid : (start.run program).stackNames.get? stack = some id)
    (hlater : ∀ s ∈ later, ∀ other, s.instruction ≠ .takeView other name) :
    let m := start.run program
    let entries := m.sequences id
    let taken := m.step ⟨.takeView stack name, into⟩
    let n := taken.1.run later
    taken.2.result = .ok (.integer entries.length) ∧
    (∀ e ∈ entries, n.heap.operand e = m.heap.operand e) ∧
    n.Presents name (entries.map (Entry.toBytes n.heap)) ∧
    ∀ view query into, n.Widens (n.step ⟨.readView view query, into⟩).1 := by
  intro m entries taken n
  obtain ⟨hmachine, hanswer⟩ : taken.1 = m.setView name (.ofStack (m.store.stack id)) ∧
    taken.2.result = .ok (.integer entries.length) := step_takeView hid name into
  have hm : m.Sound := sound_run program
  have htaken := step_continues hm ⟨.takeView stack name, into⟩
  have hrun := run_continues htaken.sound later
  have hview : n.views.get? name = some (.ofStack (m.store.stack id)) := by
    rw [view_run taken.1 hlater, hmachine]
    exact Table.get?_set_self _ _ _
  refine ⟨hanswer, fun e he => ?_, hrun.sound.presents hview, readView_widens n⟩
  have hentry : m.heap.HasEntry e := hm.has _ (.slot (View.mem_ofStack.mp he))
  exact (htaken.store.trans hrun.store).heap.operand hentry

/-- A view of a number and a byte string outlasts the commitment of its stack, and shows the byte that
the buffer got since; a view taken then shows the stack as it is then. -/
theorem view_snapshot_of_two :
    let program : List Step := [⟨.onStack "s" (.pushNumber (.integer 5)), none⟩,
      ⟨.onStack "s" (.pushBytes (.bytes [7])), none⟩]
    let later : List Step := [⟨.edit (.peek (.integer (-1)) "s") (.append (.integer 9)), none⟩,
      ⟨.onStack "s" .commit, none⟩, ⟨.takeView "s" "w", none⟩]
    let n := ((start.run program).step ⟨.takeView "s" "v", none⟩).1.run later
    n.Presents "v" [[5], [7, 9]] ∧ n.store.stack ⟨0⟩ = .empty := by
  intro program later n
  have hlater : ∀ s ∈ later, ∀ other, s.instruction ≠ .takeView other "v" := by simp [later]
  have hshown : ((start.run program).sequences ⟨0⟩).map (Entry.toBytes n.heap) = [[5], [7, 9]] := by
    decide +kernel
  obtain ⟨_, _, hview, _⟩ := view_snapshot program later "s" "v" ⟨0⟩ none rfl hlater
  rw [hshown] at hview
  exact ⟨hview, by decide +kernel⟩

end Machine

end ScriptStack
