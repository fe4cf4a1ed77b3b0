import ScriptStack.Stack.Basic

/-! The ways to show a whole stack: as text, as a table, as JSON, and with its sharing. -/
namespace ScriptStack

/-- A slot as it is shown: what it holds, and the lowest slot below that has the same buffer. -/
structure ShownSlot where
  content : Content
  sharedWith : Option Nat
  deriving DecidableEq, Repr

namespace Stack

def isWritable (h : Heap) (s : Stack) : Bool := (s.contents h).all Content.isWritable

def display (h : Heap) (s : Stack) : String :=
  "Stack([" ++ String.intercalate ", " (s.slots.map (Entry.display h)) ++ "])"

def table (h : Heap) (s : Stack) : List (Nat × Content) :=
  (s.contents h).zipIdx.map fun (c, i) => (i, c)

def jsonValue : Content → String
  | .number v => Decimal.integerText v
  | .bytes data => "\"" ++ data.hex ++ "\""

def jsonMember (row : Nat × Content) : String :=
  "  \"" ++ Decimal.natText row.1 ++ "\": " ++ jsonValue row.2

def json (h : Heap) (s : Stack) : String :=
  match s.table h with
  | [] => "\x7b\x7d"
  | rows => "\x7b\n" ++ String.intercalate ",\n" (rows.map jsonMember) ++ "\n\x7d"

def display? (h : Heap) (s : Stack) : Option String :=
  if s.isWritable h then some (s.display h) else none

def json? (h : Heap) (s : Stack) : Option String :=
  if s.isWritable h then some (s.json h) else none

def sharedWith (h : Heap) (slots : List Entry) (i : Nat) (e : Entry) : Option Nat :=
  (e.buffer? h).bind fun b =>
    (slots.findIdx? fun f => f.buffer? h == some b).filter (· < i)

def shownSlots (h : Heap) (s : Stack) : List ShownSlot :=
  let slots := s.slots
  slots.zipIdx.map fun (e, i) => ⟨e.content h, sharedWith h slots i e⟩

end Stack

end ScriptStack
