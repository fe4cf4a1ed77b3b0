import ScriptStack.Proofs.Program.Soundness
import ScriptStack.Proofs.Stack.Twins
import ScriptStack.Value.Equality

/-! Equality of the entries and of the stacks of a program: an equivalence that every operation
respects. -/
namespace ScriptStack

namespace Value

variable (σ : Store)

theorem same_entry (e f : Entry) : same σ (.entry e) (.entry f) = .ok true ↔ e.Same σ.heap f := by
  simp [same, samePlain, Entry.Same]

theorem equivalence_same_entry :
    Equivalence fun e f : Entry => same σ (.entry e) (.entry f) = .ok true := by
  have h := Entry.equivalence_same σ.heap
  simp only [same_entry]
  exact ⟨h.refl, h.symm, h.trans⟩

theorem equivalence_same_stack :
    Equivalence fun i j : StackId => same σ (.stack i) (.stack j) = .ok true := by
  have h := Stack.equivalence_same σ.heap
  simp only [same_stack]
  exact ⟨fun _ => h.refl _, h.symm, h.trans⟩

end Value

namespace Machine

/-- Equality of entries and of stacks is an equivalence, and two equal stacks are told apart by no
operations that are run on both: each one ends the same, whether it answers or fails, views show the
same, and the stacks are equal again. -/
theorem equality_congruent (program : List Step) :
    let m := start.run program
    (Equivalence fun e f : Entry => Value.same m.store (.entry e) (.entry f) = .ok true) ∧
    (Equivalence fun i j : StackId => Value.same m.store (.stack i) (.stack j) = .ok true) ∧
    ∀ i j, Value.same m.store (.stack i) (.stack j) = .ok true →
      ∀ moves, (⟨m.heap, m.store.stack i, m.store.stack j⟩ : Twins).AllowsAll moves →
        let p := Twins.run ⟨m.heap, m.store.stack i, m.store.stack j⟩ moves
        p.left.same p.heap p.right = true ∧
        (∀ more, p.AllowsAll more →
          let heap := (p.run more).heap
          let view := View.ofStack p.left
          let other := View.ofStack p.right
          other.items heap = view.items heap ∧ other.itemsReversed heap = view.itemsReversed heap ∧
            ∀ index, other.item? heap index = view.item? heap index) ∧
        ∀ op other, op.Matches p.heap other → p.Agrees op other := by
  intro m
  have hm := sound_run program
  refine ⟨Value.equivalence_same_entry _, Value.equivalence_same_stack _, fun i j hij => ?_⟩
  have hsame := (Value.same_stack m.store i j).mp hij
  have hsound : Twins.Sound ⟨m.heap, m.store.stack i, m.store.stack j⟩ :=
    ⟨hm.closed, fun e he => hm.has _ (.slot he), fun e he => hm.has _ (.slot he),
      Stack.same_iff_alike.mp hsame⟩
  intro moves hmoves p
  have hp := (hsound.run hmoves).1
  refine ⟨Stack.same_iff_alike.mpr hp.same, fun more hmore => ?_, fun op other hop => ?_⟩
  · exact View.same_of_items (hp.views hmore)
  · exact (hp.matches hop).2.2

end Machine

end ScriptStack
