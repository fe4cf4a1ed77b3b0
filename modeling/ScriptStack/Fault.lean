import ScriptStack.Kind
import ScriptStack.Limits
import ScriptStack.Quantity

/-! Why an operation fails, and the text that says so. -/
namespace ScriptStack

/-- A value that the operation's own arithmetic or indexing cannot take. These have no text. -/
inductive Misuse where
  | wrongKind | badValue | noMember | noIndex | tooLarge | noMemory | unknownName
  deriving DecidableEq, Repr

inductive Shortage where
  | depth | emptyPop
  deriving DecidableEq, Repr

inductive Fault where
  | underflow (shortage : Shortage) (required : Quantity) (available : Nat)
  | offsetNotNegative (shown : Option String)
  | indexOutOfRange (shown : Option String) (height : Nat)
  | numberTooWide (value : Int)
  | itemTooWide (data : Bytes)
  | numberOverflow (value : Int)
  | numberTooLong (size : Nat) (limit : Quantity)
  | notMinimal (data : Bytes)
  | notComparable (kind : Kind)
  | notInteger
  | numberExpected (kind : Kind)
  | bufferExpected (kind : Kind)
  | entryExpected (kind : Kind)
  | misuse (cause : Misuse)
  deriving DecidableEq, Repr

def Shortage.text : Shortage → String
  | depth => "Not enough elements on stack"
  | emptyPop => "Cannot pop from an empty stack"

namespace Fault

def depthsText (required available : String) : String :=
  ". Required: " ++ required ++ ", Available: " ++ available

def text? : Fault → Option String
  | underflow shortage required available => required.text?.map fun required =>
    shortage.text ++ depthsText required (Decimal.natText available)
  | offsetNotNegative shown => shown.map fun shown =>
    "Top-relative stack offset must be negative. Received: " ++ shown
  | indexOutOfRange shown height => shown.map fun shown =>
    "Stack index " ++ shown ++ " out of range for stack of height " ++ Decimal.natText height
  | numberTooWide value => (Decimal.text? value).map fun shown =>
    "Stack number " ++ shown ++ " is wider than 32 bits"
  | itemTooWide data =>
    some ("Stack item " ++ data.hex ++ " is wider than " ++
      Decimal.natText Limits.commitmentWidth ++ " bytes")
  | numberOverflow value => (Decimal.text? value).map fun shown =>
    "Stack number " ++ shown ++ " exceeds the 32-bit script window"
  | numberTooLong size limit => limit.text?.map fun limit =>
    "Script number of " ++ Decimal.natText size ++ " bytes exceeds max size of " ++ limit ++ " bytes"
  | notMinimal data => some ("Non-minimally encoded script number: " ++ data.hex)
  | notComparable kind => some ("Incorrect type for ScriptNum comparison: " ++ kind.shown)
  | notInteger => some "ScriptNum value must be an integer"
  | numberExpected kind => some ("NumEntry value must be an integer. Received: " ++ kind.shown)
  | bufferExpected kind => some ("BytesEntry expects a bytearray buffer. Received: " ++ kind.shown)
  | entryExpected kind =>
    some ("Only StackEntry objects are allowed on the Stack. Received: " ++ kind.shown)
  | misuse _ => none

/-- What comes of raising a fault that has a text. This is written for that, and to write an integer
that is too long fails in its own way. -/
def raised (fault : Fault) : Fault := if fault.text?.isSome then fault else misuse .badValue

end Fault

def Misuse.lift {α : Type} : Except Misuse α → Except Fault α
  | .ok a => .ok a
  | .error cause => .error (.misuse cause)

end ScriptStack
