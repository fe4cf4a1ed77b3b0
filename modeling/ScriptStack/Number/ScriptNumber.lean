import ScriptStack.Number.Reading

/-! Integers that remember their encoding, and how they compare with other values. -/
namespace ScriptStack

/-- The encoding is kept once it is known. -/
structure ScriptNumber where
  value : Int
  cache : Option Bytes
  deriving DecidableEq, Repr

namespace ScriptNumber

def ofInt (v : Int) : ScriptNumber := ⟨v, none⟩

def remember (v : Int) (data : Bytes) : ScriptNumber :=
  ⟨v, if Number.isMinimal data then some data else none⟩

def read (data : Bytes) (limit : Quantity) (minimal : Bool) : Except Fault ScriptNumber :=
  (Number.read data limit minimal).map fun v => remember v data

def toBytes (n : ScriptNumber) : Bytes × ScriptNumber :=
  let data := n.cache.getD (Number.encode n.value)
  (data, ⟨n.value, some data⟩)

def text (n : ScriptNumber) : String := n.toBytes.1.hex

def display? (n : ScriptNumber) : Option String :=
  (Decimal.text? n.value).map fun shown => "ScriptNum(" ++ shown ++ ")"

end ScriptNumber

inductive Relation where
  | eq | ne | lt | le | gt | ge
  deriving DecidableEq, Repr

namespace Relation

def holds : Relation → Int → Int → Bool
  | eq, a, b => decide (a = b)
  | ne, a, b => decide (a ≠ b)
  | lt, a, b => decide (a < b)
  | le, a, b => decide (a ≤ b)
  | gt, a, b => decide (b < a)
  | ge, a, b => decide (b ≤ a)

def converse : Relation → Relation
  | eq => eq
  | ne => ne
  | lt => gt
  | le => ge
  | gt => lt
  | ge => le

theorem holds_converse (r : Relation) (a b : Int) : r.converse.holds b a = r.holds a b := by
  cases r <;> simp [converse, holds, eq_comm]

end Relation

inductive Comparand where
  | integer (value : Int)
  | encoded (data : Bytes)
  | other (kind : Kind)
  deriving DecidableEq, Repr

namespace Comparand

def value : Comparand → Except Fault Int
  | integer v => .ok v
  | encoded data => Number.read data Number.defaultLimit false
  | other kind => .error (.notComparable kind)

end Comparand

/-- What is no number is unequal to every number and has no place among them. -/
def ScriptNumber.relate (r : Relation) (n : ScriptNumber) (x : Comparand) : Except Fault Bool :=
  match r, x with
  | .eq, .other _ => .ok false
  | .ne, .other _ => .ok true
  | r, x => x.value.map (r.holds n.value)

end ScriptStack
