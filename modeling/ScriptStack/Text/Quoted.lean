import ScriptStack.Bytes.Hex
import ScriptStack.Text.Hidden

/-! Text and byte strings as they are quoted inside a longer message. -/
namespace ScriptStack.Quoted

/-- Single quotes, unless the content has one and no double quote. -/
def quoteFor (content : List Char) : Char :=
  if content.contains '\'' && !content.contains '"' then '"' else '\''

def digitsOf (width n : Nat) : List Char :=
  let digits := Nat.toDigits 16 n
  List.replicate (width - digits.length) '0' ++ digits

def escapeCode (c : Char) : List Char :=
  if c.toNat < 0x100 then '\\' :: 'x' :: digitsOf 2 c.toNat
  else if c.toNat < 0x10000 then '\\' :: 'u' :: digitsOf 4 c.toNat
  else '\\' :: 'U' :: digitsOf 8 c.toNat

def escapeChar (quote c : Char) : List Char :=
  if c = quote ∨ c = '\\' then ['\\', c]
  else if c = '\n' then ['\\', 'n']
  else if c = '\r' then ['\\', 'r']
  else if c = '\t' then ['\\', 't']
  else if !Hidden.isHidden c then [c]
  else escapeCode c

def quoted (content : List Char) (escape : Char → Char → List Char) : List Char :=
  let quote := quoteFor content
  quote :: content.flatMap (escape quote) ++ [quote]

def text (s : String) : String := String.ofList (quoted s.toList escapeChar)

def escapeToAscii (quote c : Char) : List Char :=
  if c.toNat < 0x80 then escapeChar quote c else escapeCode c

def asciiText (s : String) : String := String.ofList (quoted s.toList escapeToAscii)

def escapeByte (quote c : Char) : List Char :=
  if c.toNat < 0x80 then escapeChar quote c else '\\' :: 'x' :: digitsOf 2 c.toNat

def charsOf (data : Bytes) : List Char := data.map fun b => Char.ofNat b.toNat

def bytes (data : Bytes) : String := String.ofList ('b' :: quoted (charsOf data) escapeByte)

def buffer (data : Bytes) : String :=
  String.ofList ('b' :: quoted (charsOf data) fun _ c => escapeByte '\'' c)

end ScriptStack.Quoted
