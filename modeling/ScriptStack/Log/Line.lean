import ScriptStack.Decimal.Text
import ScriptStack.Log.Layout
import ScriptStack.Log.Level
import ScriptStack.Text.Quoted

/-! Log lines: records written out in a layout. -/
namespace ScriptStack.Log

namespace Spec

def pad (spec : Spec) (body : List Char) : List Char :=
  let fill := List.replicate (spec.width - body.length) ' '
  if spec.left then body ++ fill else fill ++ body

def sign (spec : Spec) : List Char :=
  if spec.plus then ['+'] else if spec.blank then [' '] else []

def padNumber (spec : Spec) (mark digits : List Char) : List Char :=
  let head := spec.sign ++ mark
  if spec.zero && !spec.left then
    head ++ Decimal.zeros (spec.width - head.length - digits.length) ++ digits
  else spec.pad (head ++ digits)

def padText (spec : Spec) (text : List Char) : List Char :=
  spec.pad (match spec.precision with
    | some p => text.take p
    | none => text)

def integer (spec : Spec) (base : Nat) (upper : Bool) (mark : List Char) (n : Nat) : List Char :=
  let digits := Nat.toDigits base n
  let digits := if upper then digits.map Char.toUpper else digits
  let digits := Decimal.zeros (spec.precision.getD 1 - digits.length) ++ digits
  spec.padNumber (if spec.alternate then mark else []) digits

def placesOf (alternate : Bool) (n places : Nat) : List Char :=
  Nat.toDigits 10 n ++
    if places = 0 then (if alternate then ['.'] else []) else '.' :: Decimal.zeros places

def leading (n count : Nat) : List Char × Nat :=
  let size := (Nat.toDigits 10 n).length
  if size ≤ count then (Nat.toDigits 10 n ++ Decimal.zeros (count - size), size - 1)
  else
    let digits := Nat.toDigits 10 (Binary64.roundDiv n (Decimal.power (size - count)))
    (digits.take count, if count < digits.length then size else size - 1)

def scientificOf (alternate : Bool) (digits : List Char) (power : Nat) : List Char :=
  let fraction := digits.drop 1
  let point := if fraction.isEmpty then (if alternate then ['.'] else []) else '.' :: fraction
  let exponent := Nat.toDigits 10 power
  digits.take 1 ++ point ++ ['e', '+'] ++ Decimal.zeros (2 - exponent.length) ++ exponent

def dropZeros (digits : List Char) : List Char :=
  (digits.reverse.dropWhile (· == '0')).reverse

def shorterOf (alternate : Bool) (n count : Nat) : List Char :=
  let size := (Nat.toDigits 10 n).length
  if size ≤ count then
    if alternate then placesOf true n (count - size) else Nat.toDigits 10 n
  else
    let (digits, power) := leading n count
    let kept := if alternate then digits else digits.take 1 ++ dropZeros (digits.drop 1)
    scientificOf alternate kept power

def real (spec : Spec) (letter : Char) (n : Nat) : List Char :=
  let places := spec.precision.getD 6
  let body :=
    if letter.toLower = 'f' then placesOf spec.alternate n places
    else if letter.toLower = 'e' then
      let (digits, power) := leading n (places + 1)
      scientificOf spec.alternate digits power
    else shorterOf spec.alternate n (max places 1)
  spec.padNumber [] (if letter.isUpper then body.map Char.toUpper else body)

/-- Whether as many digits are written as the precision says. The shorter form leaves out zeros,
unless it is asked for all of them, and texts and characters have no digits. -/
def writesDigits (spec : Spec) (letter : Char) : Bool :=
  "diuoxXeEfF".toList.contains letter || ("gG".toList.contains letter && spec.alternate)

/-- A number in the conversion that a letter stands for, if there is room for its digits. Where it
is not counted with, its text is shown. -/
def number? (spec : Spec) (letter : Char) (n : Nat) (text : String) : Option (List Char) :=
  if spec.writesDigits letter && !spec.fitsDigits then none
  else match letter with
    | 'd' | 'i' | 'u' => some (spec.integer 10 false [] n)
    | 'o' => some (spec.integer 8 false ['0', 'o'] n)
    | 'x' => some (spec.integer 16 false ['0', 'x'] n)
    | 'X' => some (spec.integer 16 true ['0', 'X'] n)
    | 'e' | 'E' | 'f' | 'F' | 'g' | 'G' => some (spec.real letter n)
    | 'c' => some (spec.pad [Char.ofNat n])
    | 's' | 'r' | 'a' => some (spec.padText text.toList)
    | _ => none

def text? (spec : Spec) (letter : Char) (text : String) : Option (List Char) :=
  match letter with
  | 's' => some (spec.padText text.toList)
  | 'r' => some (spec.padText (Quoted.text text).toList)
  | 'a' => some (spec.padText (Quoted.asciiText text).toList)
  | 'c' => if text.length = 1 then some (spec.pad text.toList) else none
  | _ => none

def thing? (spec : Spec) (letter : Char) (shown : (String → String) → String) :
    Option (List Char) :=
  match letter with
  | 's' | 'r' => some (spec.padText (shown Quoted.text).toList)
  | 'a' => some (spec.padText (shown Quoted.asciiText).toList)
  | _ => none

def unseen? (spec : Spec) (letter : Char) : Option (List Char) :=
  if spec.precision = some 0 then spec.thing? letter fun _ => "" else none

end Spec

def Record.shown (record : Record) (quote : String → String) : String :=
  "\x7b'name': " ++ quote record.logger ++ ", 'msg': " ++ quote record.message ++
    ", 'args': (), 'levelname': " ++ quote record.level.name ++ ", 'levelno': " ++
    record.level.numberText ++ ", 'pathname': '"

/-- What a field shows of a record. There are no arguments, and one process with one thread. -/
def Field.write? (field : Field) (record : Record) (time : String) (spec : Spec) (letter : Char) :
    Option (List Char) :=
  match field with
  | name => spec.text? letter record.logger
  | levelName => spec.text? letter record.level.name
  | levelNumber => spec.number? letter record.level.number record.level.numberText
  | message => spec.text? letter record.message
  | .time => spec.text? letter time
  | arguments => spec.thing? letter fun _ => "()"
  | thread => spec.text? letter "MainThread"
  | process => spec.text? letter "MainProcess"
  | absent => spec.thing? letter fun _ => "None"
  | unseen => spec.unseen? letter
  | .record => spec.thing? letter record.shown

def Piece.write? (record : Record) (time : String) : Piece → Option (List Char)
  | literal c => some [c]
  | field f spec letter => f.write? record time spec letter

def Layout.line? (layout : Layout) (record : Record) (time : String) : Option String := do
  let pieces ← pieces? layout.text
  let parts ← pieces.mapM (Piece.write? record time)
  return String.ofList (parts.flatten ++ ['\n'])

end ScriptStack.Log
