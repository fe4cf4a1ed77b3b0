import ScriptStack.Proofs.Program.Reference

/-! Updates of a machine: they keep it sound, if what they put into it exists. -/
namespace ScriptStack

theorem Table.get?_set_eq_some {α : Type} {t : Table α} {name other : String} {a b : α}
    (h : (t.set name a).get? other = some b) :
    (other = name ∧ b = a) ∨ t.get? other = some b := by
  by_cases hn : other = name
  · rw [hn, Table.get?_set_self] at h
    exact .inl ⟨hn, (Option.some.inj h).symm⟩
  · rw [Table.get?_set_of_ne t hn] at h
    exact .inr h

namespace Store

theorem mem_stack_setStack {σ : Store} {i j : StackId} {s : Stack} {e : Entry}
    (he : e ∈ ((σ.setStack i s).stack j).entries) : e ∈ s.entries ∨ e ∈ (σ.stack j).entries := by
  by_cases hj : j = i
  · subst hj
    by_cases hlt : j.index < σ.stackCells.length
    · rw [stack_setStack_self hlt] at he
      exact .inl he
    · rw [Store.stack, Store.setStack, List.getElem?_eq_none (by simpa using hlt)] at he
      cases he
  · rw [stack_setStack_of_ne σ hj] at he
    exact .inr he

theorem mem_stack_addStack {σ : Store} {j : StackId} {s : Stack} {e : Entry}
    (he : e ∈ ((σ.addStack s).stack j).entries) : e ∈ s.entries ∨ e ∈ (σ.stack j).entries := by
  by_cases hlt : j.index < σ.stackCells.length
  · rw [stack_addStack_of_lt hlt] at he
    exact .inr he
  · by_cases hj : j = σ.next
    · rw [hj, stack_addStack_next] at he
      exact .inl he
    · have hne : j.index ≠ σ.stackCells.length := fun hi => hj (by cases j; simp_all [next])
      rw [Store.stack, Store.addStack, List.getElem?_eq_none (by simp; omega)] at he
      cases he

end Store

namespace Machine

variable {m : Machine}

theorem persists_withHeap {h : Heap} (hp : m.heap.Persists h) :
    m.store.Persists (m.withHeap h).store :=
  ⟨hp, Nat.le_refl _⟩

theorem persists_setStack (m : Machine) (id : StackId) (s : Stack) :
    m.store.Persists (m.setStack id s).store :=
  ⟨.refl _, Nat.le_of_eq List.length_set.symm⟩

theorem lt_addStack (m : Machine) (name : String) (s : Stack) :
    m.store.stackCells.length < (m.addStack name s).store.stackCells.length := by
  simp [Machine.addStack, Store.addStack]

theorem persists_addStack (m : Machine) (name : String) (s : Stack) :
    m.store.Persists (m.addStack name s).store :=
  ⟨.refl _, Nat.le_of_lt (lt_addStack m name s)⟩

theorem Sound.withHeap (hm : m.Sound) {h : Heap} (hp : m.heap.Persists h) (hc : h.Closed) :
    (m.withHeap h).Sound := by
  refine ⟨hc, fun r hr => ?_⟩
  have hold : m.Reaches r := by
    cases hr with
    | slot he => exact .slot he
    | item hv he => exact .item hv he
    | held hv hr => exact .held hv hr
    | named hn => exact .named hn
  exact (persists_withHeap hp).has (hm.has r hold)

theorem Sound.setStack (hm : m.Sound) {id : StackId} {s : Stack}
    (hs : ∀ e ∈ s.entries, m.heap.HasEntry e) : (m.setStack id s).Sound := by
  have hlast := persists_setStack m id s
  refine ⟨hm.closed, fun r hr => ?_⟩
  cases hr with
  | slot he =>
    obtain he | he := Store.mem_stack_setStack he
    · exact hs _ he
    · exact hm.has _ (.slot he)
  | item hv he => exact hm.has _ (.item hv he)
  | held hv hr => exact hlast.has (hm.has r (.held hv hr))
  | named hn => exact hlast.has (hm.has _ (.named hn))

theorem Sound.addStack (hm : m.Sound) {name : String} {s : Stack}
    (hs : ∀ e ∈ s.entries, m.heap.HasEntry e) : (m.addStack name s).Sound := by
  have hlast := persists_addStack m name s
  refine ⟨hm.closed, fun r hr => ?_⟩
  cases hr with
  | slot he =>
    obtain he | he := Store.mem_stack_addStack he
    · exact hs _ he
    · exact hm.has _ (.slot he)
  | item hv he => exact hm.has _ (.item hv he)
  | held hv hr => exact hlast.has (hm.has r (.held hv hr))
  | named hn =>
    obtain ⟨_, rfl⟩ | hn := Table.get?_set_eq_some hn
    · exact lt_addStack m name s
    · exact hlast.has (hm.has _ (.named hn))

theorem Sound.setView (hm : m.Sound) {name : String} {v : View}
    (hv : ∀ e ∈ v.entries, m.heap.HasEntry e) : (m.setView name v).Sound := by
  refine ⟨hm.closed, fun r hr => ?_⟩
  cases hr with
  | slot he => exact hm.has _ (.slot he)
  | item hget he =>
    obtain ⟨_, rfl⟩ | hget := Table.get?_set_eq_some hget
    · exact hv _ he
    · exact hm.has _ (.item hget he)
  | held hv hr => exact hm.has r (.held hv hr)
  | named hn => exact hm.has _ (.named hn)

theorem Sound.setRegister (hm : m.Sound) {name : String} {v : Value}
    (hv : ∀ r ∈ v.references, m.store.Has r) : (m.setRegister name v).Sound := by
  refine ⟨hm.closed, fun r hr => ?_⟩
  cases hr with
  | slot he => exact hm.has _ (.slot he)
  | item hv he => exact hm.has _ (.item hv he)
  | held hget hr =>
    obtain ⟨_, rfl⟩ | hget := Table.get?_set_eq_some hget
    · exact hv r hr
    · exact hm.has r (.held hget hr)
  | named hn => exact hm.has _ (.named hn)

end Machine

end ScriptStack
