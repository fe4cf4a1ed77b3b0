/-! The kinds of values that a program handles. -/
namespace ScriptStack

inductive Kind where
  | integer | flag | nothing | text | real | bytes | byteArray | memory | list
  | scriptNumber | numberEntry | bytesEntry | stack
  deriving DecidableEq, Repr

def Kind.className : Kind → String
  | integer => "int"
  | flag => "bool"
  | nothing => "NoneType"
  | text => "str"
  | real => "float"
  | bytes => "bytes"
  | byteArray => "bytearray"
  | memory => "memoryview"
  | list => "list"
  | scriptNumber => "scriptexec.script.scriptnum.ScriptNum"
  | numberEntry => "scriptexec.script.entry.NumEntry"
  | bytesEntry => "scriptexec.script.entry.BytesEntry"
  | stack => "scriptexec.script.stack.Stack"

def Kind.shown (kind : Kind) : String := "<class '" ++ kind.className ++ "'>"

end ScriptStack
