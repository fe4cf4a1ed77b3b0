/-! Blanks: what may stand around or between the parts of a text that is read. -/
namespace ScriptStack.Blank

def isAscii (c : Char) : Bool := c == ' ' || ('\t' ≤ c && c ≤ '\r')

/-- The code points of the blanks beyond ASCII, but for a row of spaces of different widths. -/
def others : List Nat := [0x85, 0xa0, 0x1680, 0x2028, 0x2029, 0x202f, 0x205f, 0x3000]

def isBlank (c : Char) : Bool :=
  isAscii c || others.contains c.toNat || (0x2000 ≤ c.toNat && c.toNat ≤ 0x200a)

def trim (text : List Char) : List Char :=
  ((text.dropWhile isBlank).reverse.dropWhile isBlank).reverse

end ScriptStack.Blank
