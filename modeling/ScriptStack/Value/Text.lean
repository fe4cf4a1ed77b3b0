import ScriptStack.Stack.Display
import ScriptStack.Text.Quoted
import ScriptStack.Value.Basic

/-! Values as they stand in a message. -/
namespace ScriptStack.Value

mutual

def display? (σ : Store) : Value → Option String
  | nothing => some "None"
  | flag b => some (Quantity.flagText b)
  | integer v => Decimal.text? v
  | text s => some (Quoted.text s)
  | real x _ => some x.render
  | bytes data => some (Quoted.bytes data)
  | memory _ => some "<memory>"
  | byteArray b => some ("bytearray(" ++ Quoted.buffer (σ.heap.read b) ++ ")")
  | list items => (displayAll? σ items).map fun shown => "[" ++ String.intercalate ", " shown ++ "]"
  | number n => n.display?
  | entry e => e.display? σ.heap
  | stack id => (σ.stack id).display? σ.heap

def displayAll? (σ : Store) : List Value → Option (List String)
  | [] => some []
  | v :: rest => (display? σ v).bind fun shown => (displayAll? σ rest).map (shown :: ·)

end

def shown? (σ : Store) : Value → Option String
  | text s => some s
  | number n => some n.text
  | v => v.display? σ

def position (σ : Store) (v : Value) : Position := ⟨v.index?, v.shown? σ⟩

end ScriptStack.Value
