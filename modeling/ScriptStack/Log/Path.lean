/-! Paths: how files and directories are named. -/
namespace ScriptStack.Log

/-- Names of directories from the outermost inwards, and of a file or directory at the end. The name
`..` leads up again. -/
abbrev Path := List String

namespace Path

def home : Path := ["tmp", "scriptstack"]

def namesOf (text : String) : Path :=
  (text.splitOn "/").filter fun name => name ≠ "" && name ≠ "."

def ofText (text : String) : Path :=
  if text.startsWith "/" then namesOf text else home ++ namesOf text

def descend (path : Path) (name : String) : Path :=
  if name = ".." then path.dropLast else path ++ [name]

/-- The path that is left when each name that leads up is taken together with the one before it. -/
def direct (path : Path) : Path := path.foldl descend []

def size (path : Path) : Nat := path.foldr (fun name n => name.utf8ByteSize + 1 + n) 0

def isReadable (path : Path) : Bool := path.all fun name => !name.toList.contains '\x00'

def longestName : Nat := 255

def longestPath : Nat := 4095

end Path

end ScriptStack.Log
