import ScriptStack.Proofs.Stack.Equality

/-! Two equal stacks that are worked on side by side, among the same buffers and entries. They stay
equal, and nothing that is answered tells one from the other. -/
namespace ScriptStack

/-- The same operation with the same arguments; entries that are pushed need only be equal. -/
inductive StackOp.Matches (h : Heap) : StackOp → StackOp → Prop where
  | same {op : StackOp} (hop : ∀ e, op = .push (.ok e) → h.HasEntry e) : Matches h op op
  | push {e f : Entry} (he : h.HasEntry e) (hf : h.HasEntry f) (hef : e.Same h f) :
    Matches h (.push (.ok e)) (.push (.ok f))

structure Twins where
  heap : Heap
  left : Stack
  right : Stack

namespace Twins

inductive Move where
  | op (left right : StackOp)
  | meanwhile (heap : Heap)

variable {p : Twins} {k : Heap} {op other : StackOp}

def first (p : Twins) (op : StackOp) : Outcome := op.run p.heap p.left

def second (p : Twins) (op other : StackOp) : Outcome := other.run (p.first op).heap p.right

def step (p : Twins) : Move → Twins
  | .op op other => ⟨(p.second op other).heap, (p.first op).stack, (p.second op other).stack⟩
  | .meanwhile heap => ⟨heap, p.left, p.right⟩

def run (p : Twins) : List Move → Twins
  | [] => p
  | move :: rest => (p.step move).run rest

def Allows (p : Twins) : Move → Prop
  | .op op other => op.Matches p.heap other
  | .meanwhile heap => p.heap.Grows heap ∧ heap.Closed

def AllowsAll (p : Twins) : List Move → Prop
  | [] => True
  | move :: rest => p.Allows move ∧ (p.step move).AllowsAll rest

/-- An operation ends the same on both: with the same answer, or with equal entries, or with the same
fault, and with the same records. -/
def Agrees (p : Twins) (op other : StackOp) : Prop :=
  (p.first op).attempt.Alike (Answer.Alike (Entry.Same (p.second op other).heap))
    (p.second op other).attempt

structure Sound (p : Twins) : Prop where
  closed : p.heap.Closed
  left : ∀ e ∈ p.left.entries, p.heap.HasEntry e
  right : ∀ e ∈ p.right.entries, p.heap.HasEntry e
  same : p.left.Alike (Entry.Same p.heap) p.right

theorem Sound.grow (hp : p.Sound) (hg : p.heap.Grows k) (hc : k.Closed) :
    Sound ⟨k, p.left, p.right⟩ where
  closed := hc
  left e he := hg.hasEntry (hp.left e he)
  right e he := hg.hasEntry (hp.right e he)
  same := Stack.forall₂_mono hp.same fun e he f hf hef =>
    hef.grow hg hp.closed (hp.left e he) (hp.right f hf)

theorem Sound.push (hp : p.Sound) {e f : Entry} (he : p.heap.HasEntry e) (hf : p.heap.HasEntry f)
    (hef : e.Same p.heap f) : Sound ⟨p.heap, p.left.push e, p.right.push f⟩ where
  closed := hp.closed
  left := List.forall_mem_cons.mpr ⟨he, hp.left⟩
  right := List.forall_mem_cons.mpr ⟨hf, hp.right⟩
  same := hp.same.push hef

theorem Sound.pushMade (hp : p.Sound) {f : Heap → Heap × Entry} {c : Content}
    (hgrows : ∀ h : Heap, h.Grows (f h).1) (hclosed : ∀ h : Heap, h.Closed → (f h).1.Closed)
    (hhas : ∀ h, (f h).1.HasEntry (f h).2)
    (hshows : ∀ h, (f h).2.content (f h).1 = c) :
    Sound ⟨(f (f p.heap).1).1, p.left.push (f p.heap).2,
      p.right.push (f (f p.heap).1).2⟩ := by
  have hg := hgrows (f p.heap).1
  have hc := hclosed _ hp.closed
  have hgrown := hp.grow ((hgrows p.heap).trans hg) (hclosed _ hc)
  refine hgrown.push (hg.hasEntry (hhas _)) (hhas _) (Entry.same_iff.mpr ?_)
  rw [Entry.content_of_grows hg hc (hhas _), hshows, hshows]

theorem Sound.quiet (hp : p.Sound) (hop : op.Quiet) :
    (p.step (.op op op)).Sound ∧ (p.step (.op op op)).heap = p.heap ∧ p.Agrees op op := by
  have hfirst : (p.first op).Shrinks p.heap p.left := hop.shrinks _ _
  have hheap : (p.first op).heap = p.heap := hfirst.1
  have hsecond : p.second op op = op.run p.heap p.right := by rw [second, hheap]
  have hshrinks : (p.second op op).Shrinks p.heap p.right := hsecond ▸ hop.shrinks _ _
  have hsame := hop.run_same hp.same
  rw [← hsecond] at hsame
  have hlast : (p.step (.op op op)).heap = p.heap := hshrinks.1
  refine ⟨⟨?_, fun e he => ?_, fun e he => ?_, ?_⟩, hlast, ?_⟩
  · rw [hlast]
    exact hp.closed
  · rw [hlast]
    exact hp.left e (hfirst.2.subset he)
  · rw [hlast]
    exact hp.right e (hshrinks.2.subset he)
  · rw [hlast]
    exact hsame.stack
  · rw [Agrees, hshrinks.1]
    exact hsame.attempt

theorem Sound.matches (hp : p.Sound) (hm : op.Matches p.heap other) :
    (p.step (.op op other)).Sound ∧ p.heap.Grows (p.step (.op op other)).heap ∧
      p.Agrees op other := by
  cases hm with
  | push he hf hef => exact ⟨hp.push he hf hef, .refl _, .done rfl⟩
  | same hop =>
    obtain hquiet | ⟨e, rfl⟩ | ⟨v, rfl⟩ | ⟨data, rfl⟩ := op.quiet_or_push
    · obtain ⟨hsound, hheap, hagrees⟩ := hp.quiet hquiet
      exact ⟨hsound, hheap ▸ .refl _, hagrees⟩
    · exact ⟨hp.push (hop e rfl) (hop e rfl) (Entry.same_iff.mpr rfl), .refl _, .done rfl⟩
    · have hgrows := fun h => Entry.grows_make h (.number v)
      refine ⟨hp.pushMade (f := fun h => Entry.ofNumber h v) hgrows
        (fun _ hc => Entry.closed_ofNumber hc v) (fun _ => Entry.hasEntry_make _ _)
        (fun h => Entry.content_ofNumber h v), (hgrows _).trans (hgrows _), .done rfl⟩
    · have hgrows := fun h => Entry.grows_ofBytes h data
      refine ⟨hp.pushMade (f := fun h => Entry.ofBytes h data) hgrows
        (fun _ hc => Entry.closed_ofBytes hc data) (fun h => Entry.hasEntry_ofBytes h data)
        (fun h => Entry.content_ofBytes h data), (hgrows _).trans (hgrows _), .done rfl⟩

theorem Sound.step (hp : p.Sound) {move : Move} (hmove : p.Allows move) :
    (p.step move).Sound ∧ p.heap.Grows (p.step move).heap := by
  cases move with
  | op op other =>
    obtain ⟨hsound, hg, _⟩ := hp.matches hmove
    exact ⟨hsound, hg⟩
  | meanwhile k => exact ⟨hp.grow hmove.1 hmove.2, hmove.1⟩

theorem Sound.run (hp : p.Sound) {moves : List Move} (hmoves : p.AllowsAll moves) :
    (p.run moves).Sound ∧ p.heap.Grows (p.run moves).heap := by
  -- equality is what each move needs of those before it
  induction moves generalizing p with
  | nil => exact ⟨hp, .refl _⟩
  | cons move rest ih =>
    obtain ⟨hmove, hrest⟩ := hmoves
    obtain ⟨hstep, hg⟩ := hp.step hmove
    obtain ⟨hrun, hgrows⟩ := ih hstep hrest
    exact ⟨hrun, hg.trans hgrows⟩

theorem Sound.views (hp : p.Sound) {more : List Move} (hmore : p.AllowsAll more) :
    (View.ofStack p.right).items (p.run more).heap =
      (View.ofStack p.left).items (p.run more).heap := by
  obtain ⟨hrun, hg⟩ := hp.run hmore
  exact (hp.grow hg hrun.closed).same.items fun e f hef => hef.toBytes

end Twins

end ScriptStack
