import Mathlib.Data.List.Forall2
import ScriptStack.Proofs.Stack.Change
import ScriptStack.Stack.View

/-! Stacks whose slots correspond one by one. Whatever the correspondence is, the operations find
the same places on both of them, take the same slots off, and fail alike. -/
namespace ScriptStack

namespace Attempt

variable {α β γ δ : Type} {Q : α → β → Prop}

inductive Alike (Q : α → β → Prop) : Attempt α → Attempt β → Prop where
  | ok (log : List Log.Record) {a : α} {b : β} (h : Q a b) : Alike Q ⟨log, .ok a⟩ ⟨log, .ok b⟩
  | fault (log : List Log.Record) (fault : Fault) : Alike Q ⟨log, .error fault⟩ ⟨log, .error fault⟩

theorem Alike.done {a : α} {b : β} (h : Q a b) : Alike Q (.done a) (.done b) := .ok [] h

theorem Alike.after {x : Attempt α} {y : Attempt β} (h : Alike Q x y) (log : List Log.Record) :
    Alike Q ⟨log ++ x.log, x.result⟩ ⟨log ++ y.log, y.result⟩ := by
  cases h with
  | ok more hab => exact .ok (log ++ more) hab
  | fault more fault => exact .fault (log ++ more) fault

theorem Alike.refl (x : Attempt α) : Alike (· = ·) x x := by
  obtain ⟨log, result⟩ := x
  cases result with
  | ok a => exact .ok log rfl
  | error fault => exact .fault log fault

theorem Alike.bind {S : γ → δ → Prop} {x : Attempt α} {y : Attempt β} {f : α → Attempt γ}
    {g : β → Attempt δ} (hxy : Alike Q x y) (hfg : ∀ a b, Q a b → Alike S (f a) (g b)) :
    Alike S (x.bind f) (y.bind g) := by
  cases hxy with
  | fault log fault => exact .fault log fault
  | ok log h =>
    rename_i a b
    have hnext := hfg a b h
    simp only [Attempt.bind]
    generalize f a = u at hnext ⊢
    generalize g b = w at hnext ⊢
    cases hnext with
    | ok more h => exact .ok (log ++ more) h
    | fault more fault => exact .fault (log ++ more) fault

end Attempt

namespace Stack

variable {R : Entry → Entry → Prop} {s t : Stack}

def Alike (R : Entry → Entry → Prop) (s t : Stack) : Prop := List.Forall₂ R s.entries t.entries

theorem forall₂_getElem? {l m : List Entry} (h : List.Forall₂ R l m) (i : Nat) :
    (l[i]? = none ∧ m[i]? = none) ∨ ∃ e f, l[i]? = some e ∧ m[i]? = some f ∧ R e f := by
  induction h generalizing i with
  | nil => exact .inl ⟨rfl, rfl⟩
  | cons hef _ ih =>
    cases i with
    | zero => exact .inr ⟨_, _, rfl, rfl, hef⟩
    | succ i => simpa using ih i

theorem forall₂_eraseIdx {l m : List Entry} (h : List.Forall₂ R l m) (i : Nat) :
    List.Forall₂ R (l.eraseIdx i) (m.eraseIdx i) := by
  induction h generalizing i with
  | nil => exact .nil
  | cons hef hrest ih =>
    cases i with
    | zero => exact hrest
    | succ i => exact .cons hef (ih i)

theorem Alike.height (h : s.Alike R t) : s.height = t.height := List.Forall₂.length_eq h

theorem forall₂_mono {S : Entry → Entry → Prop} {l m : List Entry} (h : List.Forall₂ R l m)
    (hRS : ∀ e ∈ l, ∀ f ∈ m, R e f → S e f) : List.Forall₂ S l m := by
  induction h with
  | nil => exact .nil
  | cons hef _ ih =>
    refine .cons (hRS _ List.mem_cons_self _ List.mem_cons_self hef) (ih fun e he f hf => ?_)
    exact hRS e (List.mem_cons_of_mem _ he) f (List.mem_cons_of_mem _ hf)

theorem map_eq_of_forall₂ {α : Type} {g k : Entry → α} {l m : List Entry}
    (h : List.Forall₂ R l m) (hR : ∀ e f, R e f → k f = g e) : m.map k = l.map g := by
  induction h with
  | nil => rfl
  | cons hef _ ih => rw [List.map_cons, List.map_cons, hR _ _ hef, ih]

theorem Alike.push (h : s.Alike R t) {e f : Entry} (hef : R e f) : (s.push e).Alike R (t.push f) :=
  .cons hef h

theorem Alike.drop (h : s.Alike R t) (n : Nat) : (s.drop n).Alike R (t.drop n) :=
  List.forall₂_drop n h

theorem alike_refuse {α β : Type} {Q : α → β → Prop} (fault : Fault) :
    Attempt.Alike Q (refuse fault) (refuse fault) := by
  rw [refuse, refuse]
  cases fault.text? with
  | some text => exact .fault _ _
  | none => exact .fault _ _

theorem Alike.top (h : s.Alike R t) (offset : Position) :
    Attempt.Alike R (s.top offset) (t.top offset) := by
  unfold Stack.top
  split
  · exact alike_refuse _
  · split
    · exact alike_refuse _
    · rename_i o _ _
      obtain ⟨hs, ht⟩ | ⟨e, f, hs, ht, hef⟩ := forall₂_getElem? h (o.natAbs - 1)
      · rw [hs, ht, h.height]
        exact .fault _ _
      · rw [hs, ht]
        exact .done hef

theorem Alike.depth? (h : s.Alike R t) (index : Position) : s.depth? index = t.depth? index := by
  rw [Stack.depth?, Stack.depth?, h.height]

theorem Alike.entryAt (h : s.Alike R t) (index : Position) :
    Attempt.Alike R (s.entryAt index) (t.entryAt index) := by
  rw [Stack.entryAt, Stack.entryAt, h.depth?, h.height]
  cases t.depth? index with
  | none => exact alike_refuse _
  | some d =>
    simp only [Option.bind_some]
    obtain ⟨hs, ht⟩ | ⟨e, f, hs, ht, hef⟩ := forall₂_getElem? h d
    · rw [hs, ht]
      exact alike_refuse _
    · rw [hs, ht]
      exact .done hef

theorem Alike.depthOf (h : s.Alike R t) (index : Position) : s.depthOf index = t.depthOf index := by
  rw [Stack.depthOf, Stack.depthOf, h.depth?, h.height]

theorem Alike.eraseAt (h : s.Alike R t) (d : Nat) : (s.eraseAt d).Alike R (t.eraseAt d) :=
  forall₂_eraseIdx h d

theorem Alike.needAtLeast (h : s.Alike R t) (n : Quantity) : s.needAtLeast n = t.needAtLeast n := by
  rw [Stack.needAtLeast, Stack.needAtLeast, h.height]

theorem Alike.removal (h : s.Alike R t) (n : Quantity) : s.removal n = t.removal n := by
  rw [Stack.removal, Stack.removal, h.needAtLeast]

theorem Alike.items {h : Heap} (hst : s.Alike R t) (hR : ∀ e f, R e f → f.toBytes h = e.toBytes h) :
    (View.ofStack t).items h = (View.ofStack s).items h := by
  rw [View.items, View.items, View.ofStack, View.ofStack, Stack.slots, Stack.slots,
    List.map_reverse, List.map_reverse, map_eq_of_forall₂ hst hR]

end Stack

theorem View.item?_eq (h : Heap) (v : View) (index : Int) :
    v.item? h index = (Index.place? (v.items h).length index).bind fun i => (v.items h)[i]? := by
  simp [item?, items, size]

theorem View.same_of_items {h : Heap} {v w : View} (hitems : w.items h = v.items h) :
    w.items h = v.items h ∧ w.itemsReversed h = v.itemsReversed h ∧
      ∀ index, w.item? h index = v.item? h index := by
  refine ⟨hitems, ?_, fun index => ?_⟩
  · rw [View.items_reverse, View.items_reverse, hitems]
  · rw [View.item?_eq, View.item?_eq, hitems]

def Answer.Alike (R : Entry → Entry → Prop) : Answer → Answer → Prop
  | .entry e, .entry f => R e f
  | a, b => a = b

/-- The stacks that two operations leave correspond slot by slot, and so do the answers. -/
structure Outcome.Alike (R : Entry → Entry → Prop) (A : Answer → Answer → Prop) (o p : Outcome) :
    Prop where
  stack : o.stack.Alike R p.stack
  attempt : o.attempt.Alike A p.attempt

namespace StackOp

variable {α β : Type} {R : Entry → Entry → Prop} {A : Answer → Answer → Prop} {h k : Heap}
  {s t : Stack}

theorem alike_read {Q : α → β → Prop} {x : Attempt α} {y : Attempt β} {f : α → Answer}
    {g : β → Answer} (hst : s.Alike R t) (hxy : x.Alike Q y) (hfg : ∀ a b, Q a b → A (f a) (g b)) :
    (Outcome.read h s x f).Alike R A (.read k t y g) :=
  ⟨hst, hxy.bind fun a b hab => .done (hfg a b hab)⟩

theorem alike_after {check : Attempt α} {act act' : α → Outcome} (hst : s.Alike R t)
    (hact : ∀ a, (act a).Alike R A (act' a)) :
    (Outcome.after h s check act).Alike R A (.after k t check act') := by
  cases hc : check.result with
  | ok a =>
    rw [Outcome.after_ok hc, Outcome.after_ok hc]
    obtain ⟨hstack, hattempt⟩ := hact a
    exact ⟨hstack, hattempt.after check.log⟩
  | error fault =>
    rw [Outcome.after_error hc, Outcome.after_error hc]
    exact ⟨hst, .fault _ _⟩

theorem alike_popTop (hst : s.Alike R t) :
    (popTop h s).Alike R (Answer.Alike R) (popTop k t) := by
  obtain ⟨l⟩ := s
  obtain ⟨m⟩ := t
  cases hst with
  | nil => exact ⟨.nil, .done rfl⟩
  | cons hef hrest => exact ⟨hrest, .done hef⟩

theorem alike_consume {Q : α → β → Prop} {read : Entry → Except Fault α}
    {read' : Entry → Except Fault β} {f : α → Answer} {g : β → Answer} (hst : s.Alike R t)
    (hread : ∀ e d, R e d → (Attempt.ofExcept (read e)).Alike Q (.ofExcept (read' d)))
    (hfg : ∀ a b, Q a b → A (f a) (g b)) :
    (consume h s read f).Alike R A (consume k t read' g) := by
  obtain ⟨l⟩ := s
  obtain ⟨m⟩ := t
  cases hst with
  | nil => exact ⟨.nil, .fault _ _⟩
  | cons hef hrest => exact alike_read hrest (hread _ _ hef) hfg

/-- What pushes nothing and goes by the places of the slots and their bytes: no reading of numbers,
no writing of texts or of the commitment. -/
def Bytewise : StackOp → Prop
  | push (.ok _) | pushNumber (.ok _) | pushBytes (.ok _) => False
  | topNumber _ _ | popNumber _ | commit | display | json | table => False
  | _ => True

theorem Bytewise.quiet {op : StackOp} (hop : op.Bytewise) : op.Quiet := by
  cases op with
  | push given | pushNumber given | pushBytes given =>
    cases given with
    | ok _ => cases hop
    | error _ => trivial
  | _ => trivial

/-- Such operations do the same on stacks whose slots show the same bytes. -/
theorem alike_run {op : StackOp} (hop : op.Bytewise) (hst : s.Alike R t)
    (hbytes : ∀ e f, R e f → f.toBytes k = e.toBytes h) :
    (op.run h s).Alike R (Answer.Alike R) (op.run k t) := by
  have hshow : ∀ e f, R e f → Answer.Alike R (.bytes (e.toBytes h)) (.bytes (f.toBytes k)) := by
    intro e f hef
    rw [hbytes e f hef]
    rfl
  cases op with
  | height =>
    rw [run, run, hst.height]
    exact alike_read hst (.refl _) fun _ _ hab => by rw [hab]; rfl
  | isEmpty | hasEntries =>
    rw [run, run, hst.height]
    exact alike_read hst (.refl _) fun _ _ hab => by rw [hab]; rfl
  | top offset => exact alike_read hst (hst.top offset) fun _ _ hef => hef
  | topBytes offset => exact alike_read hst (hst.top offset) hshow
  | last => exact alike_read hst (hst.top topmost) hshow
  | bytesAt index => exact alike_read hst (hst.entryAt index) hshow
  | needAtLeast n =>
    refine alike_read (Q := (· = ·)) hst ((Attempt.Alike.refl _).bind ?_) fun _ _ _ => rfl
    rintro q _ rfl
    rw [hst.needAtLeast]
    exact .refl _
  | push entry =>
    cases entry with
    | ok e => cases hop
    | error kind => exact ⟨hst, .fault _ _⟩
  | pushNumber value =>
    cases value with
    | ok v => cases hop
    | error kind => exact ⟨hst, .fault _ _⟩
  | pushBytes data =>
    cases data with
    | ok data => cases hop
    | error cause => exact ⟨hst, .fault _ _⟩
  | pop => exact alike_popTop hst
  | popN n =>
    have hcheck : (Attempt.ofGiven n).bind s.removal = (Attempt.ofGiven n).bind t.removal :=
      congrArg _ (funext hst.removal)
    rw [run, run, hcheck]
    exact alike_after hst fun k => ⟨hst.drop k, .done rfl⟩
  | popBytes =>
    refine alike_consume hst (Q := (· = ·)) (fun e d hed => ?_) fun a b hab => by rw [hab]; rfl
    rw [hbytes e d hed]
    exact .refl _
  | removeAt index =>
    rw [run, run, hst.depthOf]
    exact alike_after hst fun d => ⟨hst.eraseAt d, .done rfl⟩
  | topNumber | popNumber | commit | display | json | table => cases hop

end StackOp

end ScriptStack
