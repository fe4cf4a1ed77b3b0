import ScriptStack.Proofs.Number.Width
import ScriptStack.Proofs.Stack.Alike
import ScriptStack.Proofs.Stack.Change
import ScriptStack.Proofs.Stack.Seeding

/-! A stack and its shadow, which holds the bytes of every slot in an entry of its own. Operations
run on both in lockstep cannot tell them apart, but for numbers that four bytes do not hold. -/
namespace ScriptStack

namespace Content

/-- How the readings of a slot and of its shadow as numbers compare, by what the slot shows. A number
above the window overflows in words that hold it, or is a bad value where these cannot be written. -/
def ReadAlike (x y : Except Fault Int) : Content → Prop
  | bytes _ => x = y
  | number v => (-(2 ^ 31 - 1) ≤ v → v ≤ 2 ^ 31 - 1 → x = .ok v ∧ y = .ok v) ∧
      (2 ^ 31 - 1 < v → (if Decimal.isWritable v then Family.overflow.Stops x
        else x = .error (.misuse .badValue)) ∧ Family.tooLong.Stops y) ∧
      (v < -(2 ^ 31 - 1) → x = .ok v ∧ Family.tooLong.Stops y)

/-- The window of numbers is bounded from above where four bytes end, but not from below. -/
theorem readAlike (c : Content) (minimal : Bool) :
    c.ReadAlike (c.toNumber minimal) ((bytes c.toBytes).toNumber minimal) := by
  cases c with
  | bytes data => rfl
  | number v =>
    have hmax : Limits.maxSigned = 2 ^ 31 - 1 := rfl
    have hwidth := Number.length_encode_le_iff v (by omega : 1 ≤ 4)
    have hin : v ≤ 2 ^ 31 - 1 → (number v).toNumber minimal = .ok v := by
      intro hv
      rw [toNumber, if_neg (by omega)]
    have hlong : 2 ^ 31 ≤ v.natAbs →
        Family.tooLong.Stops ((bytes (number v).toBytes).toNumber minimal) := by
      intro hv
      have hsize : (4 : Int) < (Number.encode v).length := by omega
      exact (Number.tooLong_stops_read (Number.encode v) 4 minimal).mpr
        ⟨hsize, Decimal.isWritable_of_lt (by decide)⟩
    refine ⟨fun hlow hhigh => ⟨hin hhigh, ?_⟩, fun hv => ⟨?_, hlong (by omega)⟩,
      fun hv => ⟨hin (by omega), hlong (by omega)⟩⟩
    · refine Number.read_eq_ok_iff.mpr
        ⟨?_, fun _ => Number.isMinimal_encode v, Number.decode_encode v⟩
      exact Int.ofNat_le.mpr (hwidth.mpr (by omega))
    · rw [toNumber_of_above (by omega)]
      cases Decimal.isWritable v with
      | true => exact Family.stops_error.mpr rfl
      | false => rfl

end Content

/-- An entry of the bytes of another entry. -/
def Entry.Shadows (h : Heap) (e f : Entry) : Prop := f.content h = .bytes (e.toBytes h)

theorem Entry.Shadows.toBytes {h : Heap} {e f : Entry} (hef : e.Shadows h f) :
    f.toBytes h = e.toBytes h := by
  rw [Entry.toBytes, hef]
  rfl

theorem Entry.Shadows.grow {h k : Heap} {e f : Entry} (hef : e.Shadows h f) (hg : h.Grows k)
    (hc : h.Closed) (he : h.HasEntry e) (hf : h.HasEntry f) : e.Shadows k f := by
  rw [Shadows, toBytes_of_grows hg hc he, content_of_grows hg hc hf]
  exact hef

theorem Entry.Shadows.readAlike {h : Heap} {e f : Entry} (hef : e.Shadows h f) (minimal : Bool) :
    (e.content h).ReadAlike (e.toNumber h minimal) (f.toNumber h minimal) := by
  rw [toNumber, toNumber, hef]
  exact (e.content h).readAlike minimal

namespace StackOp

def shadow (h : Heap) : StackOp → StackOp
  | push (.ok e) => pushBytes (.ok (e.toBytes h))
  | pushNumber (.ok v) => pushBytes (.ok (Number.encode v))
  | op => op

def numberSlot? (s : Stack) : StackOp → Option Entry
  | topNumber offset _ => (s.top offset).result.toOption
  | popNumber _ => s.entries.head?
  | _ => none

theorem Bytewise.numberSlot? {op : StackOp} (hop : op.Bytewise) {s : Stack} :
    op.numberSlot? s = none := by
  cases op with
  | topNumber | popNumber => cases hop
  | _ => rfl

def Allowed (h : Heap) : StackOp → Prop
  | push (.ok e) => h.HasEntry e
  | commit | display | json | table => False
  | _ => True

end StackOp

/-- A stack and its shadow, among the same buffers and entries. -/
structure Lockstep where
  heap : Heap
  stack : Stack
  shadow : Stack

namespace Lockstep

inductive Move where
  | op (op : StackOp)
  | meanwhile (heap : Heap)

variable {p : Lockstep} {k : Heap} {op : StackOp}

def first (p : Lockstep) (op : StackOp) : Outcome := op.run p.heap p.stack

def second (p : Lockstep) (op : StackOp) : Outcome :=
  (op.shadow p.heap).run (p.first op).heap p.shadow

def step (p : Lockstep) : Move → Lockstep
  | .op op => ⟨(p.second op).heap, (p.first op).stack, (p.second op).stack⟩
  | .meanwhile heap => ⟨heap, p.stack, p.shadow⟩

def run (p : Lockstep) : List Move → Lockstep
  | [] => p
  | move :: rest => (p.step move).run rest

def Allows (p : Lockstep) : Move → Prop
  | .op op => op.Allowed p.heap
  | .meanwhile heap => p.heap.Grows heap ∧ heap.Closed

def AllowsAll (p : Lockstep) : List Move → Prop
  | [] => True
  | move :: rest => p.Allows move ∧ (p.step move).AllowsAll rest

/-- An operation ends alike on both, but for the readings of a slot as a number. -/
def Agrees (p : Lockstep) (op : StackOp) : Prop :=
  match op.numberSlot? p.stack with
  | none => (p.first op).attempt.Alike (Answer.Alike (Entry.Shadows (p.second op).heap))
      (p.second op).attempt
  | some e => ∃ log x y, (p.first op).attempt = ⟨log, x.map .integer⟩ ∧
      (p.second op).attempt = ⟨log, y.map .integer⟩ ∧ (e.content p.heap).ReadAlike x y

structure Sound (p : Lockstep) : Prop where
  closed : p.heap.Closed
  stack : ∀ e ∈ p.stack.entries, p.heap.HasEntry e
  shadow : ∀ e ∈ p.shadow.entries, p.heap.HasEntry e
  alike : p.stack.Alike (Entry.Shadows p.heap) p.shadow

theorem Sound.grow (hp : p.Sound) (hg : p.heap.Grows k) (hc : k.Closed) :
    Sound ⟨k, p.stack, p.shadow⟩ where
  closed := hc
  stack e he := hg.hasEntry (hp.stack e he)
  shadow e he := hg.hasEntry (hp.shadow e he)
  alike := Stack.forall₂_mono hp.alike fun e he f hf hef =>
    hef.grow hg hp.closed (hp.stack e he) (hp.shadow f hf)

theorem Sound.push (hp : p.Sound) {e : Entry} {data : Bytes} (he : p.heap.HasEntry e)
    (hdata : e.toBytes p.heap = data) :
    Sound ⟨(Entry.ofBytes p.heap data).1, p.stack.push e,
      p.shadow.push (Entry.ofBytes p.heap data).2⟩ := by
  have hg := Entry.grows_ofBytes p.heap data
  have hgrown := hp.grow hg (Entry.closed_ofBytes hp.closed data)
  refine ⟨hgrown.closed, fun f hf => ?_, fun f hf => ?_, hgrown.alike.push ?_⟩
  · obtain rfl | hf := List.mem_cons.mp hf
    · exact hg.hasEntry he
    · exact hgrown.stack f hf
  · obtain rfl | hf := List.mem_cons.mp hf
    · exact Entry.hasEntry_ofBytes _ _
    · exact hgrown.shadow f hf
  · have hsame := (Entry.toBytes_of_grows hg hp.closed he).trans hdata
    exact (Entry.content_ofBytes _ _).trans (congrArg Content.bytes hsame.symm)

theorem Sound.shrink (hp : p.Sound) {o q : Outcome} (ho : o.Shrinks p.heap p.stack)
    (hq : q.Shrinks o.heap p.shadow) (hst : o.stack.Alike (Entry.Shadows p.heap) q.stack) :
    Sound ⟨q.heap, o.stack, q.stack⟩ ∧ p.heap.Grows q.heap := by
  obtain ⟨hheap, hsub⟩ := ho
  obtain ⟨hheap', hsub'⟩ := hq
  rw [hheap', hheap]
  exact ⟨⟨hp.closed, fun e he => hp.stack e (hsub.subset he),
    fun e he => hp.shadow e (hsub'.subset he), hst⟩, .refl _⟩

theorem op_cases (hop : op.Allowed p.heap) :
    (∃ e, op = .push (.ok e) ∧ p.heap.HasEntry e) ∨ (∃ v, op = .pushNumber (.ok v)) ∨
    (∃ data, op = .pushBytes (.ok data)) ∨ (∃ offset minimal, op = .topNumber offset minimal) ∨
    (∃ minimal, op = .popNumber minimal) ∨ op.Bytewise := by
  cases op with
  | push entry =>
    cases entry with
    | ok e => exact .inl ⟨e, rfl, hop⟩
    | error kind => simp [StackOp.Bytewise]
  | pushNumber value => cases value <;> simp [StackOp.Bytewise]
  | pushBytes data => cases data <;> simp [StackOp.Bytewise]
  | commit | display | json | table => cases hop
  | _ => simp [StackOp.Bytewise]

theorem second_of_bytewise (hop : op.Bytewise) :
    p.second op = op.run (p.first op).heap p.shadow := by
  cases op with
  | push entry =>
    cases entry with
    | ok e => cases hop
    | error kind => rfl
  | pushNumber value =>
    cases value with
    | ok v => cases hop
    | error kind => rfl
  | _ => rfl

theorem Sound.first_of_bytewise (hp : p.Sound) (hop : op.Bytewise) :
    (p.first op).Shrinks p.heap p.stack ∧ (p.second op).Shrinks (p.first op).heap p.shadow ∧
      (p.first op).Alike (Entry.Shadows p.heap) (Answer.Alike (Entry.Shadows p.heap))
        (p.second op) := by
  have hfirst := hop.quiet.shrinks p.heap p.stack
  rw [second_of_bytewise hop]
  refine ⟨hfirst, hop.quiet.shrinks _ _, StackOp.alike_run hop hp.alike fun e f hef => ?_⟩
  rw [first, hfirst.1]
  exact hef.toBytes

theorem Sound.step (hp : p.Sound) {move : Move} (hmove : p.Allows move) :
    (p.step move).Sound ∧ p.heap.Grows (p.step move).heap := by
  cases move with
  | meanwhile k => exact ⟨hp.grow hmove.1 hmove.2, hmove.1⟩
  | op op =>
    obtain ⟨e, rfl, he⟩ | ⟨v, rfl⟩ | ⟨data, rfl⟩ | ⟨offset, minimal, rfl⟩ | ⟨minimal, rfl⟩ |
      hbyte := op_cases hmove
    -- a push is matched by a push of the same bytes; the other operations only take slots off
    · exact ⟨hp.push he rfl, Entry.grows_ofBytes _ _⟩
    · have hg := Entry.grows_make p.heap (.number v)
      have hgrown := hp.grow hg (Entry.closed_ofNumber hp.closed v)
      have hbytes := congrArg Content.toBytes (Entry.content_ofNumber p.heap v)
      exact ⟨hgrown.push (Entry.hasEntry_make _ _) hbytes, hg.trans (Entry.grows_ofBytes _ _)⟩
    · have hg := Entry.grows_ofBytes p.heap data
      have hgrown := hp.grow hg (Entry.closed_ofBytes hp.closed data)
      have hbytes := congrArg Content.toBytes (Entry.content_ofBytes p.heap data)
      exact ⟨hgrown.push (Entry.hasEntry_ofBytes _ _) hbytes, hg.trans (Entry.grows_ofBytes _ _)⟩
    · exact hp.shrink (StackOp.shrinks_read _ _) (StackOp.shrinks_read _ _) hp.alike
    · have hfirst : (p.first (.popNumber minimal)).stack = p.stack.drop 1 :=
        StackOp.consume_stack _ _
      have hsecond : (p.second (.popNumber minimal)).stack = p.shadow.drop 1 :=
        StackOp.consume_stack _ _
      refine hp.shrink (StackOp.shrinks_consume _ _) (StackOp.shrinks_consume _ _) ?_
      rw [hfirst, hsecond]
      exact hp.alike.drop 1
    · obtain ⟨hfirst, hsecond, halike⟩ := hp.first_of_bytewise hbyte
      exact hp.shrink hfirst hsecond halike.stack

theorem Sound.run (hp : p.Sound) {moves : List Move} (hmoves : p.AllowsAll moves) :
    (p.run moves).Sound ∧ p.heap.Grows (p.run moves).heap := by
  -- soundness is what each move needs of those before it; the heap only grows along them
  induction moves generalizing p with
  | nil => exact ⟨hp, .refl _⟩
  | cons move rest ih =>
    obtain ⟨hmove, hrest⟩ := hmoves
    have hstep := hp.step hmove
    have hrun := ih hstep.1 hrest
    exact ⟨hrun.1, hstep.2.trans hrun.2⟩

theorem attempt_reading {e : Entry} (log : List Log.Record) (read : Entry → Except Fault Int) :
    ((Attempt.bind ⟨log, .ok e⟩ fun e => .ofExcept (read e)).bind fun n => .done (.integer n)) =
      ⟨log, (read e).map Answer.integer⟩ := by
  cases hread : read e <;>
    simp [Attempt.bind, Attempt.ofExcept, Attempt.done, Attempt.fail, hread, Except.map]

theorem Sound.agrees_topNumber (hp : p.Sound) (offset : Position) (minimal : Bool) :
    p.Agrees (.topNumber offset minimal) := by
  have htop := hp.alike.top offset
  have hfirst : (p.first (.topNumber offset minimal)).attempt =
      ((p.stack.top offset).bind fun e => .ofExcept (e.toNumber p.heap minimal)).bind
        fun n => .done (.integer n) := rfl
  have hsecond : (p.second (.topNumber offset minimal)).attempt =
      ((p.shadow.top offset).bind fun f => .ofExcept (f.toNumber p.heap minimal)).bind
        fun n => .done (.integer n) := rfl
  rw [Agrees, StackOp.numberSlot?, hfirst, hsecond]
  generalize p.stack.top offset = x at htop ⊢
  generalize p.shadow.top offset = y at htop ⊢
  cases htop with
  | fault log fault => exact .fault log fault
  | ok log hef =>
    exact ⟨log, _, _, attempt_reading log _, attempt_reading log _, hef.readAlike minimal⟩

theorem Sound.agrees_popNumber (hp : p.Sound) (minimal : Bool) :
    p.Agrees (.popNumber minimal) := by
  obtain ⟨h, ⟨l⟩, ⟨m⟩⟩ := p
  have hslots : List.Forall₂ (Entry.Shadows h) l m := hp.alike
  cases hslots with
  | nil => exact .fault _ _
  | cons hef _ =>
    exact ⟨[], _, _, attempt_reading [] _, attempt_reading [] _, hef.readAlike minimal⟩

theorem Sound.agrees (hp : p.Sound) (hop : op.Allowed p.heap) : p.Agrees op := by
  obtain ⟨e, rfl, he⟩ | ⟨v, rfl⟩ | ⟨data, rfl⟩ | ⟨offset, minimal, rfl⟩ | ⟨minimal, rfl⟩ | hbyte :=
    op_cases hop
  · exact .done rfl
  · exact .done rfl
  · exact .done rfl
  · exact hp.agrees_topNumber offset minimal
  · exact hp.agrees_popNumber minimal
  · obtain ⟨hfirst, hsecond, halike⟩ := hp.first_of_bytewise hbyte
    have hheap : (p.second op).heap = p.heap := hsecond.1.trans hfirst.1
    rw [Agrees, hbyte.numberSlot?, hheap]
    exact halike.attempt

theorem Sound.views (hp : p.Sound) {more : List Move} (hmore : p.AllowsAll more) :
    (View.ofStack p.shadow).items (p.run more).heap =
      (View.ofStack p.stack).items (p.run more).heap := by
  obtain ⟨hrun, hg⟩ := hp.run hmore
  exact (hp.grow hg hrun.closed).alike.items fun e f hef => hef.toBytes

theorem Sound.seedFrom (hp : p.Sound) {h : Heap} {entries : List Entry} (hc : h.Closed)
    (hg : h.Grows p.heap) (hentries : ∀ e ∈ entries, h.HasEntry e) :
    let seeded := Stack.seedFrom p.heap p.shadow (entries.map fun e => .ok (e.toBytes h))
    ∃ t, seeded.2 = .ok t ∧ Sound ⟨seeded.1, ⟨entries.reverse ++ p.stack.entries⟩, t⟩ := by
  induction entries generalizing p with
  | nil => exact ⟨p.shadow, rfl, hp⟩
  | cons e rest ih =>
    have he := hentries e List.mem_cons_self
    have hpush := hp.push (hg.hasEntry he) (Entry.toBytes_of_grows hg hc he)
    obtain ⟨t, hseed, hsound⟩ := ih hpush (hg.trans (Entry.grows_ofBytes _ _))
      fun f hf => hentries f (List.mem_cons_of_mem e hf)
    refine ⟨t, hseed, ?_⟩
    rw [List.reverse_cons, List.append_assoc]
    exact hsound

/-- A stack has a shadow: one that is seeded with the bytes of its slots. -/
theorem exists_seeded {h : Heap} {s : Stack} (hc : h.Closed) (hs : ∀ e ∈ s.entries, h.HasEntry e) :
    let seeded := Stack.seed h (s.slots.map fun e => .ok (e.toBytes h))
    ∃ t, seeded.2.result = .ok t ∧ Sound ⟨seeded.1, s, t⟩ := by
  have hempty : Sound ⟨h, .empty, .empty⟩ :=
    ⟨hc, fun e he => absurd he List.not_mem_nil, fun e he => absurd he List.not_mem_nil, .nil⟩
  obtain ⟨t, hseed, hsound⟩ := hempty.seedFrom hc (.refl h)
    fun e he => hs e (List.mem_reverse.mp he)
  have hslots : (⟨s.slots.reverse ++ []⟩ : Stack) = s := by
    rw [Stack.slots, List.reverse_reverse, List.append_nil]
  have hshadowed : Sound ⟨_, ⟨s.slots.reverse ++ []⟩, t⟩ := hsound
  rw [hslots] at hshadowed
  exact ⟨t, Stack.seed_eq_ok.mpr hseed, hshadowed⟩

end Lockstep

end ScriptStack
