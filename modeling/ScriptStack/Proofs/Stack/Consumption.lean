import ScriptStack.Proofs.Stack.Failure
import ScriptStack.Proofs.Stack.Sequence

/-! Taking entries off a stack: what is consumed is what a peek shows, and one entry goes; several go
as they do one after another. -/
namespace ScriptStack

def Outcome.dropTop (o : Outcome) : Outcome := { o with stack := o.stack.drop 1 }

namespace Stack

variable {s : Stack} {e : Entry} {rest : List Entry}

theorem drop_zero (s : Stack) : s.drop 0 = s := rfl

theorem drop_drop (s : Stack) (a b : Nat) : (s.drop a).drop b = s.drop (a + b) := by
  simp [drop]

theorem entries_of_slots {below : List Entry} (hs : s.slots = below ++ [e]) :
    s.entries = e :: below.reverse := by
  have hentries := congrArg List.reverse hs
  simpa [slots] using hentries

theorem top_topmost (hs : s.entries = e :: rest) : s.top StackOp.topmost = .done e := by
  have htop : s.entries[(-1 : Int).natAbs - 1]? = some e := by rw [hs]; rfl
  simp only [top, StackOp.topmost, Position.ofInt, htop]
  rfl

theorem top_topmost_of_nil (hs : s.entries = []) :
    s.top StackOp.topmost = .fail (.underflow .depth (.integer 1) 0) := by
  obtain ⟨l⟩ := s
  cases hs
  have hone : (Fault.underflow .depth (.integer 1) 0).raised = .underflow .depth (.integer 1) 0 := by
    rw [Fault.raised_underflow, if_pos (Decimal.isWritable_of_lt (by decide))]
  exact congrArg Attempt.fail hone

theorem depth?_below_height (s : Stack) :
    s.depth? (.ofInt (s.height - 1)) = if s.entries = [] then none else some 0 := by
  obtain ⟨l⟩ := s
  cases l with
  | nil => rfl
  | cons e rest =>
    have hplace : 0 ≤ ((rest.length + 1 : Nat) : Int) - 1 ∧
        ((rest.length + 1 : Nat) : Int) - 1 < (rest.length + 1 : Nat) := by omega
    have hdepth : rest.length + 1 - 1 - (((rest.length + 1 : Nat) : Int) - 1).toNat = 0 := by omega
    rw [if_neg (List.cons_ne_nil e rest)]
    simp only [depth?, Position.ofInt, height, Option.bind_some, List.length_cons, if_pos hplace,
      hdepth]

theorem entryAt_below_height (hs : s.entries = e :: rest) :
    s.entryAt (.ofInt (s.height - 1)) = .done e := by
  rw [entryAt, depth?_below_height, hs, if_neg (List.cons_ne_nil e rest)]
  rfl

end Stack

namespace StackOp

variable {h : Heap} {s : Stack} {e : Entry} {rest : List Entry}

theorem dropTop_read {α : Type} (x : Attempt α) (answer : α → Answer) :
    (Outcome.read h s x answer).dropTop = .read h (s.drop 1) x answer := rfl

/-- Where there is a top entry, to consume it is to look at it, read it, and take it off. -/
theorem consume_eq_dropTop {α : Type} (hs : s.entries = e :: rest) (read : Entry → Except Fault α)
    (answer : α → Answer) : consume h s read answer =
      (Outcome.read h s ((s.top topmost).bind fun e => .ofExcept (read e)) answer).dropTop := by
  rw [dropTop_read, Stack.top_topmost hs, Attempt.done_bind, consume, hs]

theorem popNumber_eq_dropTop (hs : s.entries = e :: rest) (minimal : Bool) :
    (popNumber minimal).run h s = ((topNumber topmost minimal).run h s).dropTop :=
  consume_eq_dropTop hs _ _

theorem popBytes_eq_dropTop (hs : s.entries = e :: rest) :
    popBytes.run h s = ((topBytes topmost).run h s).dropTop := by
  refine (consume_eq_dropTop hs _ _).trans ?_
  rw [run, Stack.top_topmost hs]
  rfl

theorem consume_empty (hs : s.entries = []) (minimal : Bool) :
    ∀ op ∈ [popBytes, popNumber minimal],
      op.run h s = ⟨h, s, .fail (.underflow .emptyPop (.integer 1) 0)⟩ := by
  simp [run, consume_nil hs, Stack.emptyPop]

theorem peek_empty (hs : s.entries = []) (minimal : Bool) :
    ∀ op ∈ [topBytes topmost, topNumber topmost minimal, last],
      op.run h s = ⟨h, s, .fail (.underflow .depth (.integer 1) 0)⟩ := by
  simp [run, Stack.top_topmost_of_nil hs, Outcome.read]

theorem bytesAt_below_height (hs : s.entries = e :: rest) :
    (bytesAt (.ofInt (s.height - 1))).run h s = (topBytes topmost).run h s := by
  rw [run, run, Stack.entryAt_below_height hs, Stack.top_topmost hs]

theorem pop_stack (h : Heap) (s : Stack) : (pop.run h s).stack = s.drop 1 := by
  obtain ⟨l⟩ := s
  cases l <;> rfl

/-- To remove the entry below the height is to pop it, also where there is none. -/
theorem removeAt_below_height (h : Heap) (s : Stack) :
    ((removeAt (.ofInt (s.height - 1))).run h s).stack = s.drop 1 := by
  rw [run, Stack.depthOf, Stack.depth?_below_height]
  obtain ⟨l⟩ := s
  cases l with
  | nil => exact congrArg Outcome.stack (Outcome.after_error (Stack.result_refuse _))
  | cons e rest => rfl

theorem popN_of_le {q : Quantity} {n : Int} (hq : q.integer? = some n) (hn : n ≤ s.height) :
    (popN (.ok q)).run h s = ⟨h, s.drop n.toNat, .done .nothing⟩ := by
  have hrun : (popN (.ok q)).run h s =
      .after h s (s.removal q) fun k => ⟨h, s.drop k, .done .nothing⟩ := rfl
  rw [hrun, Stack.removal_of_le hq hn, Outcome.after_done]

theorem popN_of_deep {q : Quantity} {n : Int} (hq : q.integer? = some n) (hn : s.height < n) :
    (popN (.ok q)).run h s = ⟨h, s, .raise (.underflow .depth q s.height)⟩ := by
  have hrun : (popN (.ok q)).run h s =
      .after h s (s.removal q) fun k => ⟨h, s.drop k, .done .nothing⟩ := rfl
  rw [hrun, Stack.removal_of_deep hq hn]
  rfl

end StackOp

end ScriptStack
