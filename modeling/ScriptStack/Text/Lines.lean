/-! Text cut into lines. -/
namespace ScriptStack.Lines

def cut (begun : List Char) : List Char → List (List Char)
  | [] => if begun.isEmpty then [] else [begun.reverse]
  | c :: rest => if c = '\n' then begun.reverse :: cut [] rest else cut (c :: begun) rest

def ofText (text : String) : List String := (cut [] text.toList).map String.ofList

/-- Line ends of all sorts as line feeds: a carriage return with a line feed after it is one line
end, and one by itself is another. -/
def unify : List Char → List Char
  | [] => []
  | '\r' :: '\n' :: rest => '\n' :: unify rest
  | c :: rest => (if c = '\r' then '\n' else c) :: unify rest

def ofFile (text : String) : List String := ofText (String.ofList (unify text.toList))

end ScriptStack.Lines
