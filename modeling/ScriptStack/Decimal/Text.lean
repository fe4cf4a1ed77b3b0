import ScriptStack.Decimal.Shortest
import ScriptStack.Text.Blank
import ScriptStack.Text.Digit

/-! Reading and writing numbers as decimal text. -/
namespace ScriptStack

namespace Decimal

def integerDigits (v : Int) : List Char :=
  if v < 0 then '-' :: Nat.toDigits 10 v.natAbs else Nat.toDigits 10 v.natAbs

def integerText (v : Int) : String := String.ofList (integerDigits v)

def natText (n : Nat) : String := integerText n

def longestInteger : Nat := 4300

/-- The least natural number that has too many digits to be written. -/
def overlong : Nat := power longestInteger

theorem overlong_eq : overlong = power longestInteger := rfl

-- From here on no proof computes it by chance.
attribute [irreducible] overlong

def isWritable (v : Int) : Bool := v.natAbs < overlong

/-- The text of an integer as it is written anywhere. Sizes and heights are never too long for it, what
a caller gives may be. -/
def text? (v : Int) : Option String := if isWritable v then some (integerText v) else none

/-- How a decimal is laid out: without exponent from `positionalFrom` up to, not including,
`positionalBelow`, with at least `exponentDigits` digits in an exponent. -/
structure Shape where
  positionalFrom : Int
  positionalBelow : Int
  exponentDigits : Nat

def plainShape : Shape := ⟨-4, 16, 2⟩

def zeros (n : Nat) : List Char := List.replicate n '0'

def positional (digits : List Char) (whole : Int) : List Char :=
  if whole ≤ 0 then '0' :: '.' :: zeros (-whole).toNat ++ digits
  else
    let n := whole.toNat
    let fraction := digits.drop n
    digits.take n ++ zeros (n - digits.length) ++ '.' ::
      (if fraction.isEmpty then ['0'] else fraction)

def scientific (shape : Shape) (digits : List Char) (exponent : Int) : List Char :=
  let power := Nat.toDigits 10 exponent.natAbs
  let fraction := digits.drop 1
  digits.take 1 ++ (if fraction.isEmpty then [] else '.' :: fraction) ++
    'e' :: (if exponent < 0 then '-' else '+') ::
      zeros (shape.exponentDigits - power.length) ++ power

def render (shape : Shape) (d : Decimal) : List Char :=
  let digits := Nat.toDigits 10 d.coefficient
  let leading : Int := digits.length - 1 + d.exponent
  if d.coefficient = 0 then ['0', '.', '0']
  else if shape.positionalFrom ≤ leading ∧ leading < shape.positionalBelow then
    positional digits (leading + 1)
  else scientific shape digits leading

/-- A run of digits in which single underscores may stand between two digits: what the digits are
worth, without the underscores, and the rest. -/
def digitRun (afterDigit : Bool) : List Char → List Nat × List Char
  | [] => ([], [])
  | c :: rest =>
    match Digit.value? c with
    | some d =>
      let (digits, left) := digitRun true rest
      (d :: digits, left)
    | none =>
      if afterDigit && c == '_' && rest.head?.any Digit.isDigit then digitRun false rest
      else ([], c :: rest)

def ofDigits (digits : List Nat) : Nat := digits.foldl (fun n d => 10 * n + d) 0

def signRun : List Char → Bool × List Char
  | '-' :: rest => (true, rest)
  | '+' :: rest => (false, rest)
  | rest => (false, rest)

def readInt? (text : String) : Option Int :=
  let (negative, body) := signRun (Blank.trim text.toList)
  match digitRun false body with
  | (d :: digits, []) =>
    if longestInteger ≤ digits.length then none
    else some (Binary64.signed negative (ofDigits (d :: digits)))
  | _ => none

def readExponent? : List Char → Option Int
  | [] => some 0
  | c :: rest =>
    if c = 'e' ∨ c = 'E' then
      let (negative, body) := signRun rest
      match digitRun false body with
      | (d :: digits, []) => some (Binary64.signed negative (ofDigits (d :: digits)))
      | _ => none
    else none

def readUnsigned? (text : List Char) : Option Decimal :=
  let (whole, rest) := digitRun false text
  let (fraction, rest) := match rest with
    | '.' :: rest => digitRun false rest
    | _ => ([], rest)
  if whole.isEmpty ∧ fraction.isEmpty then none
  else (readExponent? rest).map fun e =>
    ⟨ofDigits (whole ++ fraction), e - fraction.length⟩

end Decimal

namespace Binary64

def read? (text : String) : Option Binary64 :=
  let (negative, body) := Decimal.signRun (Blank.trim text.toList)
  let word := String.ofList (body.map Char.toLower)
  if word = "inf" ∨ word = "infinity" then some (.infinite negative)
  else if word = "nan" then some .nan
  else (Decimal.readUnsigned? body).map fun d => ofDecimal negative d.coefficient d.exponent

def render : Binary64 → String
  | finite negative m e =>
    String.ofList ((if negative then ['-'] else []) ++ (shortest m e).render Decimal.plainShape)
  | infinite negative => if negative then "-inf" else "inf"
  | nan => "nan"

end Binary64

end ScriptStack
