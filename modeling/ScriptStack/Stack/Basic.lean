import ScriptStack.Entry

/-! The stack. Peeks count from the top with negative offsets, positions from the bottom. -/
namespace ScriptStack

/-- A position as a caller gives it: the integer it is, if it is one, and its text, if it can be
written. -/
structure Position where
  integer? : Option Int
  shown? : Option String
  deriving DecidableEq, Repr

namespace Position

def ofInt (i : Int) : Position := ⟨some i, Decimal.text? i⟩

end Position

/-- The entries, the top one first. -/
structure Stack where
  entries : List Entry
  deriving DecidableEq, Repr

namespace Stack

def logger : String := "scriptexec.script.stack"

def empty : Stack := ⟨[]⟩

def height (s : Stack) : Nat := s.entries.length

def slots (s : Stack) : List Entry := s.entries.reverse

def push (s : Stack) (e : Entry) : Stack := ⟨e :: s.entries⟩

def drop (s : Stack) (n : Nat) : Stack := ⟨s.entries.drop n⟩

def contents (h : Heap) (s : Stack) : List Content := s.slots.map (Entry.content h)

def same (h : Heap) (s t : Stack) : Bool := s.contents h == t.contents h

def refuse {α : Type} (fault : Fault) : Attempt α := .refuse logger fault.text? fault

/-- The entry so far from the top as the offset says: `-1` is the top itself. -/
def top (s : Stack) (offset : Position) : Attempt Entry :=
  match offset.integer? with
  | none => refuse (.offsetNotNegative offset.shown?)
  | some o =>
    if 0 ≤ o then refuse (.offsetNotNegative offset.shown?)
    else match s.entries[o.natAbs - 1]? with
      | some e => .done e
      | none => .raise (.underflow .depth (.integer (-o)) s.height)

def depth? (s : Stack) (index : Position) : Option Nat :=
  index.integer?.bind fun i =>
    if 0 ≤ i ∧ i < s.height then some (s.height - 1 - i.toNat) else none

def entryAt (s : Stack) (index : Position) : Attempt Entry :=
  match (s.depth? index).bind (s.entries[·]?) with
  | some e => .done e
  | none => refuse (.indexOutOfRange index.shown? s.height)

def depthOf (s : Stack) (index : Position) : Attempt Nat :=
  match s.depth? index with
  | some d => .done d
  | none => refuse (.indexOutOfRange index.shown? s.height)

def eraseAt (s : Stack) (depth : Nat) : Stack := ⟨s.entries.eraseIdx depth⟩

def needAtLeast (s : Stack) (n : Quantity) : Attempt Unit :=
  if n.above s.height then .raise (.underflow .depth n s.height) else .done ()

/-- How many entries a positive quantity removes; only integers count entries. -/
def removalCount : Quantity → Except Misuse Nat
  | .integer n => .ok n.toNat
  | .flag b => .ok (Quantity.flagValue b).toNat
  | .real _ => .error .wrongKind
  | .number _ => .error .wrongKind

def removal (s : Stack) (n : Quantity) : Attempt Nat :=
  (s.needAtLeast n).bind fun _ =>
    if n.above 0 then Attempt.ofGiven (removalCount n) else .done 0

def emptyPop : Fault := .underflow .emptyPop (.integer 1) 0

def commitEntries (h : Heap) : List Entry → Attempt Bytes
  | [] => .done []
  | e :: rest =>
    (e.commit h).bind fun word => (commitEntries h rest).bind fun words => .done (word ++ words)

def commitment (h : Heap) (s : Stack) : Attempt Bytes := commitEntries h s.slots

def seededText (n : Nat) : String := "Seeded stack with " ++ Decimal.natText n ++ " items"

/-- Pushes one new buffer for each item. The first item that is no byte string ends it; the buffers
that were made before it are there then, though there is no stack. -/
def seedFrom (h : Heap) (s : Stack) : List (Except Misuse Bytes) → Heap × Except Misuse Stack
  | [] => (h, .ok s)
  | .ok data :: rest =>
    let (h, e) := Entry.ofBytes h data
    seedFrom h (s.push e) rest
  | .error cause :: _ => (h, .error cause)

def seed (h : Heap) (items : List (Except Misuse Bytes)) : Heap × Attempt Stack :=
  let (h, made) := seedFrom h empty items
  (h, (Attempt.ofGiven made).bind fun s =>
    (Attempt.note logger .debug (seededText s.height)).bind fun _ => .done s)

theorem slots_push (s : Stack) (e : Entry) : (s.push e).slots = s.slots ++ [e] := by
  simp [slots, push]

theorem length_slots (s : Stack) : s.slots.length = s.height := by simp [slots, height]

theorem slots_drop (s : Stack) (n : Nat) : (s.drop n).slots = s.slots.take (s.height - n) := by
  simp only [slots, drop, height, List.take_reverse]
  rcases Nat.le_total n s.entries.length with h | h
  · rw [Nat.sub_sub_self h]
  · simp [List.drop_eq_nil_of_le h, Nat.sub_eq_zero_of_le h]

end Stack

end ScriptStack
