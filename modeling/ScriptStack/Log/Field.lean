/-! Fields that a log line can show, and the ways to lay one out. -/
namespace ScriptStack.Log

/-- The parts of a record, and the record as a whole. What it does not have is `absent`, and what is
known of the place and the time that it was made at only outside is `unseen`. -/
inductive Field where
  | name | levelName | levelNumber | message | time | arguments | thread | process
  | absent | unseen | record
  deriving DecidableEq, Repr

def unseenKeys : List String :=
  ["pathname", "filename", "module", "lineno", "funcName", "created", "msecs", "relativeCreated",
    "thread", "process"]

def Field.ofKey? : String → Option Field
  | "name" => some name
  | "levelname" => some levelName
  | "levelno" => some levelNumber
  | "message" => some message
  | "msg" => some message
  | "asctime" => some time
  | "args" => some arguments
  | "threadName" => some thread
  | "processName" => some process
  | "exc_info" => some absent
  | "exc_text" => some absent
  | "stack_info" => some absent
  | key => if unseenKeys.contains key then some unseen else none

structure Spec where
  left : Bool
  plus : Bool
  blank : Bool
  alternate : Bool
  zero : Bool
  width : Nat
  precision : Option Nat
  deriving DecidableEq, Repr

namespace Spec

def plain : Spec := ⟨false, false, false, false, false, 0, none⟩

def roomForField : Nat := 0x4000000

def greatestPrecision : Nat := 0x7fffffff

def isPossible (spec : Spec) : Bool :=
  spec.width ≤ roomForField && spec.precision.getD 0 ≤ greatestPrecision

def fitsDigits (spec : Spec) : Bool := spec.precision.getD 0 ≤ roomForField

end Spec

inductive Piece where
  | literal (c : Char)
  | field (field : Field) (spec : Spec) (conversion : Char)
  deriving DecidableEq, Repr

def Piece.field? : Piece → Option Field
  | literal _ => none
  | field f _ _ => some f

end ScriptStack.Log
