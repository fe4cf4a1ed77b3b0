import ScriptStack.Buffer.Edit
import ScriptStack.Program.Term
import ScriptStack.Stack.Operation

/-! Calls: operations whose arguments are still terms. -/
namespace ScriptStack

inductive StackCall where
  | height
  | isEmpty
  | hasEntries
  | top (offset : Term)
  | topBytes (offset : Term)
  | topNumber (offset : Term) (minimal : Bool)
  | last
  | bytesAt (index : Term)
  | needAtLeast (n : Term)
  | push (entry : Term)
  | pushNumber (value : Term)
  | pushBytes (data : Term)
  | pop
  | popN (n : Term)
  | popBytes
  | popNumber (minimal : Bool)
  | removeAt (index : Term)
  | commit
  | display
  | json
  | table

namespace StackCall

def withArgument (m : Machine) (t : Term) (op : Machine → Value → StackOp) :
    Attempt (Machine × StackOp) :=
  (t.eval m).bind fun (m, v) => .done (m, op m v)

def atPosition (m : Machine) (t : Term) (op : Position → StackOp) : Attempt (Machine × StackOp) :=
  withArgument m t fun m v => op (v.position m.store)

def plain (m : Machine) (op : StackOp) : Attempt (Machine × StackOp) := .done (m, op)

def resolve (m : Machine) : StackCall → Attempt (Machine × StackOp)
  | height => plain m .height
  | isEmpty => plain m .isEmpty
  | hasEntries => plain m .hasEntries
  | top offset => atPosition m offset .top
  | topBytes offset => atPosition m offset .topBytes
  | topNumber offset minimal => atPosition m offset fun p => .topNumber p minimal
  | last => plain m .last
  | bytesAt index => atPosition m index .bytesAt
  | needAtLeast n => withArgument m n fun _ v => .needAtLeast v.quantity
  | push entry => withArgument m entry fun m v => .push (v.entry? m.heap)
  | pushNumber value => withArgument m value fun m v => .pushNumber (v.integer? m.heap)
  | pushBytes data => withArgument m data fun m v => .pushBytes (v.newBytes m.heap)
  | pop => plain m .pop
  | popN n => withArgument m n fun _ v => .popN v.quantity
  | popBytes => plain m .popBytes
  | popNumber minimal => plain m (.popNumber minimal)
  | removeAt index => atPosition m index .removeAt
  | commit => plain m .commit
  | display => plain m .display
  | json => plain m .json
  | table => plain m .table

end StackCall

inductive EditCall where
  | set (index byte : Term)
  | append (byte : Term)
  | insert (index byte : Term)
  | pop (index : Term)
  | delete (start stop : Term)
  | extend (data : Term)
  | assign (data : Term)
  | clear

namespace EditCall

def bound : Value → Except Misuse (Option Int)
  | .nothing => .ok none
  | v => v.index.map some

def withArgument (m : Machine) (t : Term) (edit : Machine → Value → Edit) :
    Attempt (Machine × Edit) :=
  (t.eval m).bind fun (m, v) => .done (m, edit m v)

def withArguments (m : Machine) (t u : Term) (edit : Value → Value → Edit) :
    Attempt (Machine × Edit) :=
  (t.eval m).bind fun (m, v) => withArgument m u fun _ w => edit v w

/-- To set a byte, the byte comes before its place; otherwise places come first. -/
def resolve (m : Machine) : EditCall → Attempt (Machine × Edit)
  | set index byte => withArguments m byte index fun b i => .set i.index b.byte
  | append byte => withArgument m byte fun _ b => .append b.byte
  | insert index byte => withArguments m index byte fun i b => .insert i.index b.byte
  | pop index => withArgument m index fun _ i => .pop i.index
  | delete start stop => withArguments m start stop fun a z => .delete (bound a) (bound z)
  | extend data => withArgument m data fun m v => .extend (v.moreBytes m.heap)
  | assign data => withArgument m data fun m v => .assign (v.replacementBytes m.heap)
  | clear => .done (m, .clear)

end EditCall

inductive ViewQuery where
  | items
  | itemsReversed
  | size
  | item (index : Term)

end ScriptStack
