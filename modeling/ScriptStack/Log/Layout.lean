import ScriptStack.Log.Field
import ScriptStack.Text.Digit
import ScriptStack.Text.Word

/-! Layouts of log lines: text with fields such as `%(name)-8s` in it. -/
namespace ScriptStack.Log

namespace Layout

inductive Stage where
  | opening | flags | width | precision | digits | conversion
  deriving DecidableEq

structure Draft where
  field : Field
  spec : Spec
  stage : Stage

/-- Where the reader stands: in literal text, in a key with so many open brackets, in a field. -/
inductive State where
  | literal
  | key (openBrackets : Nat) (text : List Char)
  | field (draft : Draft)

def startField (field : Field) (stage : Stage) : State := .field ⟨field, .plain, stage⟩

def setFlag? (spec : Spec) : Char → Option Spec
  | '-' => some { spec with left := true }
  | '+' => some { spec with plus := true }
  | ' ' => some { spec with blank := true }
  | '#' => some { spec with alternate := true }
  | '0' => some { spec with zero := true }
  | _ => none

def addDigit (n : Nat) (c : Char) : Nat := 10 * n + (c.toNat - '0'.toNat)

def isConversion (c : Char) : Bool := "diouxXeEfFgGcrsa".toList.contains c

def finish? (d : Draft) (c : Char) : Option (Piece × State) :=
  if isConversion c && d.spec.isPossible then some (.field d.field d.spec c, .literal) else none

def afterWidth? (d : Draft) (c : Char) : Option (Option Piece × State) :=
  if c = '.' ∧ d.spec.precision.isNone then
    some (none, .field { d with spec := { d.spec with precision := some 0 }, stage := .precision })
  else if c = 'h' ∨ c = 'l' ∨ c = 'L' then
    some (none, .field { d with stage := .conversion })
  else (finish? d c).map fun (p, s) => (some p, s)

def widthDigit (d : Draft) (c : Char) : State :=
  .field { d with spec := { d.spec with width := addDigit d.spec.width c }, stage := .width }

def precisionDigit (d : Draft) (c : Char) : State :=
  .field { d with
    spec := { d.spec with precision := some (addDigit (d.spec.precision.getD 0) c) }
    stage := .digits }

def inFlags? (d : Draft) (c : Char) : Option (Option Piece × State) :=
  match setFlag? d.spec c with
  | some spec => some (none, .field { d with spec := spec, stage := .flags })
  | none => if c.isDigit then some (none, widthDigit d c) else afterWidth? d c

def inField? (d : Draft) (c : Char) : Option (Option Piece × State) :=
  match d.stage with
  | .opening =>
    if c = '%' then some (some (.literal '%'), .literal)
    else if c = '(' then some (none, .key 1 [])
    else inFlags? d c
  | .flags => inFlags? d c
  | .width => if c.isDigit then some (none, widthDigit d c) else afterWidth? d c
  | .precision => if c.isDigit then some (none, precisionDigit d c) else afterWidth? d c
  | .digits => if c.isDigit then some (none, precisionDigit d c) else afterWidth? d c
  | .conversion => (finish? d c).map fun (p, s) => (some p, s)

/-- Brackets inside a key come in pairs; a key that names no field is refused. -/
def inKey? (openBrackets : Nat) (text : List Char) (c : Char) : Option (Option Piece × State) :=
  if c = ')' ∧ openBrackets = 1 then
    (Field.ofKey? (String.ofList text.reverse)).map fun f => (none, startField f .flags)
  else if c = ')' then some (none, .key (openBrackets - 1) (c :: text))
  else if c = '(' then some (none, .key (openBrackets + 1) (c :: text))
  else some (none, .key openBrackets (c :: text))

def read? (state : State) (c : Char) : Option (Option Piece × State) :=
  match state with
  | .literal =>
    if c = '%' then some (none, startField .record .opening) else some (some (.literal c), .literal)
  | .key openBrackets text => inKey? openBrackets text c
  | .field d => inField? d c

def piecesFrom? (state : State) : List Char → Option (List Piece)
  | [] => match state with
    | .literal => some []
    | _ => none
  | c :: rest => do
    let (piece, state) ← read? state c
    let pieces ← piecesFrom? state rest
    return piece.toList ++ pieces

/-- The whole record can only be shown before any of its parts, and only once. -/
def recordLeads (pieces : List Piece) : Bool :=
  !((pieces.filterMap Piece.field?).drop 1).contains .record

def pieces? (text : String) : Option (List Piece) :=
  (piecesFrom? .literal text.toList).filter recordLeads

def isConversionLetter (c : Char) : Bool :=
  "diouxefgcrsa%".toList.contains c.toLower || ['ı', 'İ', 'ſ'].contains c

/-- Counts may have digits of any script here, but a field that has them cannot be written. -/
def dropCount : List Char → List Char
  | '*' :: rest => rest
  | rest => rest.dropWhile Digit.isDigit

def dropPrecision : List Char → List Char
  | '.' :: '*' :: rest => rest
  | '.' :: c :: rest => if Digit.isDigit c then rest.dropWhile Digit.isDigit else '.' :: c :: rest
  | rest => rest

def fieldStarts (text : List Char) : Bool :=
  match text with
  | '%' :: '(' :: rest =>
    match rest.takeWhile Word.isWordChar, rest.dropWhile Word.isWordChar with
    | _ :: _, ')' :: rest =>
      let rest := rest.dropWhile fun c => "#0+ -".toList.contains c
      (dropPrecision (dropCount rest)).head?.any isConversionLetter
    | _, _ => false
  | _ => false

def hasField : List Char → Bool
  | [] => false
  | c :: rest => fieldStarts (c :: rest) || hasField rest

end Layout

structure Layout where
  text : String
  showsField : Layout.hasField text.toList = true
  deriving DecidableEq

namespace Layout

def standard : Layout :=
  ⟨"%(asctime)s [%(name)s] [%(levelname)s]: %(message)s", by decide +kernel⟩

def messageOnly : Layout := ⟨"%(message)s", by decide +kernel⟩

/-- The empty text asks for the message alone. -/
def ofText? (text : String) : Option Layout :=
  if text.isEmpty then some messageOnly
  else if h : hasField text.toList = true then some ⟨text, h⟩ else none

end Layout

end ScriptStack.Log
