import ScriptStack.Proofs.Program.Soundness
import ScriptStack.Proofs.Stack.Lockstep

/-! Whether a stack of a program holds entries or the bytes of them: what a script can find out. -/
namespace ScriptStack

namespace Machine

/-- A stack whose slots are replaced by new entries of their bytes is told apart from it by no
operations, but for the numbers that four bytes do not hold. The only readings that differ by more
than the family of the overflow are of numbers below the window, and of numbers above it that cannot
be written. -/
theorem entries_transparent (program : List Step) (id : StackId) :
    let m := start.run program
    let s := m.store.stack id
    let seeded := Stack.seed m.heap (s.slots.map fun e => .ok (e.toBytes m.heap))
    Family.tooLong.isA .overflow = true ∧
    ∃ t, seeded.2.result = .ok t ∧
      ∀ moves, (⟨seeded.1, s, t⟩ : Lockstep).AllowsAll moves →
        let p := Lockstep.run ⟨seeded.1, s, t⟩ moves
        p.stack.height = p.shadow.height ∧
        (∀ more, p.AllowsAll more →
          let heap := (p.run more).heap
          let view := View.ofStack p.stack
          let other := View.ofStack p.shadow
          other.items heap = view.items heap ∧ other.itemsReversed heap = view.itemsReversed heap ∧
            ∀ index, other.item? heap index = view.item? heap index) ∧
        ∀ op, op.Allowed p.heap → p.Agrees op := by
  intro m s seeded
  have hm := sound_run program
  obtain ⟨t, hseed, hsound⟩ := Lockstep.exists_seeded hm.closed fun e he => hm.has _ (.slot he)
  refine ⟨rfl, t, hseed, fun moves hmoves => ?_⟩
  have hp := (hsound.run hmoves).1
  refine ⟨hp.alike.height, fun more hmore => ?_, fun op hop => hp.agrees hop⟩
  have hitems := hp.views hmore
  refine ⟨hitems, ?_, fun index => ?_⟩
  · rw [View.items_reverse, View.items_reverse, hitems]
  · rw [View.item?_eq, View.item?_eq, hitems]

/-- Numbers just outside the window: the one above it overflows on both stacks, the one below it is
read where it is a number, and too long where it is bytes. -/
theorem transparent_outside_window :
    let m := start.run [⟨.onStack "s" (.pushNumber (.integer (-2 ^ 31))), none⟩,
      ⟨.onStack "s" (.pushNumber (.integer (2 ^ 31))), none⟩]
    let seeded := Stack.seed m.heap ((m.store.stack ⟨0⟩).slots.map fun e => .ok (e.toBytes m.heap))
    ∃ t, seeded.2.result = .ok t ∧
      let take := StackOp.popNumber true
      let p : Lockstep := ⟨seeded.1, m.store.stack ⟨0⟩, t⟩
      let q := p.step (.op take)
      t.height = 2 ∧ Family.overflow.Stops (p.first take).attempt.result ∧
        Family.tooLong.Stops (p.second take).attempt.result ∧
        (q.first take).attempt.result = .ok (.integer (-2 ^ 31)) ∧
        Family.tooLong.Stops (q.second take).attempt.result := by
  intro m seeded
  obtain ⟨_, t, hseed, hall⟩ := entries_transparent
    [⟨.onStack "s" (.pushNumber (.integer (-2 ^ 31))), none⟩,
      ⟨.onStack "s" (.pushNumber (.integer (2 ^ 31))), none⟩] ⟨0⟩
  have hg : m.heap.Grows seeded.1 := (Stack.seed_seeds (sound_run _).closed hseed).2.grows
  refine ⟨t, hseed, ?_⟩
  intro take p q
  have hheap : q.heap = seeded.1 := (StackOp.shrinks_consume _ _).1
  have hmade : m.heap.HasEntry ⟨0⟩ ∧ m.heap.HasEntry ⟨1⟩ := ⟨Nat.zero_lt_two, Nat.one_lt_two⟩
  have habove : (Entry.mk 1).content p.heap = .number (2 ^ 31) :=
    Entry.content_of_number ((hg.operand hmade.2).trans rfl)
  have hbelow : (Entry.mk 0).content q.heap = .number (-2 ^ 31) := by
    rw [hheap]
    exact Entry.content_of_number ((hg.operand hmade.1).trans rfl)
  obtain ⟨hheight, _, hfirst⟩ := hall [] trivial
  obtain ⟨_, _, hsecond⟩ := hall [.op take] ⟨trivial, trivial⟩
  have hp : ∃ log x y, (p.first take).attempt = ⟨log, x.map .integer⟩ ∧
      (p.second take).attempt = ⟨log, y.map .integer⟩ ∧
      ((Entry.mk 1).content p.heap).ReadAlike x y := hfirst take trivial
  have hq : ∃ log x y, (q.first take).attempt = ⟨log, x.map .integer⟩ ∧
      (q.second take).attempt = ⟨log, y.map .integer⟩ ∧
      ((Entry.mk 0).content q.heap).ReadAlike x y := hsecond take trivial
  obtain ⟨log, x, y, hx, hy, hread⟩ := hp
  obtain ⟨log', x', y', hx', hy', hread'⟩ := hq
  rw [habove] at hread
  rw [hbelow] at hread'
  rw [hx, hy, hx', hy']
  obtain ⟨hover, hlong⟩ := hread.2.1 (by decide)
  rw [if_pos (Decimal.isWritable_of_lt (by decide))] at hover
  obtain ⟨hvalue, hlong'⟩ := hread'.2.2 (by decide)
  exact ⟨hheight.symm, Family.stops_map.mpr hover, Family.stops_map.mpr hlong,
    congrArg (Except.map Answer.integer) hvalue, Family.stops_map.mpr hlong'⟩

/-- A number that cannot be written is far above the window, and reading it is refused for what it is,
and not as an overflow. Its bytes are too long. -/
theorem opaque_overlong_number :
    let m := start.run [⟨.onStack "s" (.pushNumber (.integer Decimal.overlong)), none⟩]
    let seeded := Stack.seed m.heap ((m.store.stack ⟨0⟩).slots.map fun e => .ok (e.toBytes m.heap))
    2 ^ 31 - 1 < (Decimal.overlong : Int) ∧ ∃ t, seeded.2.result = .ok t ∧
      let p : Lockstep := ⟨seeded.1, m.store.stack ⟨0⟩, t⟩
      (p.first (.popNumber true)).attempt.result = .error (.misuse .badValue) ∧
        ¬ Family.overflow.Stops (p.first (.popNumber true)).attempt.result ∧
        Family.tooLong.Stops (p.second (.popNumber true)).attempt.result := by
  intro m seeded
  have hm : m.Sound := sound_run _
  have habove : 2 ^ 31 - 1 < (Decimal.overlong : Int) := by
    have hlarge := Decimal.le_overlong
    omega
  obtain ⟨t, hseed, hsound⟩ := Lockstep.exists_seeded (s := m.store.stack ⟨0⟩) hm.closed
    fun e he => hm.has _ (.slot he)
  refine ⟨habove, t, hseed, ?_⟩
  intro p
  have hmade : m.heap.HasEntry ⟨0⟩ := Nat.zero_lt_one
  have hg : m.heap.Grows seeded.1 := (Stack.seed_seeds hm.closed hseed).2.grows
  have hcontent : (Entry.mk 0).content p.heap = .number Decimal.overlong :=
    Entry.content_of_number ((hg.operand hmade).trans rfl)
  have hp : ∃ log x y, (p.first (.popNumber true)).attempt = ⟨log, x.map .integer⟩ ∧
      (p.second (.popNumber true)).attempt = ⟨log, y.map .integer⟩ ∧
      ((Entry.mk 0).content p.heap).ReadAlike x y := hsound.agrees_popNumber true
  obtain ⟨log, x, y, hx, hy, hread⟩ := hp
  rw [hcontent] at hread
  obtain ⟨hbad, hlong⟩ := hread.2.1 habove
  rw [Decimal.isWritable_overlong, if_neg Bool.false_ne_true] at hbad
  rw [hx, hy, hbad]
  exact ⟨rfl, Family.not_stops_misuse _ _, Family.stops_map.mpr hlong⟩

end Machine

end ScriptStack
