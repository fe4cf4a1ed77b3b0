import ScriptStack.Stack.Display
import ScriptStack.Stack.View

/-! The operations on a stack as data, and their effect. -/
namespace ScriptStack

inductive StackOp where
  | height
  | isEmpty
  | hasEntries
  | top (offset : Position)
  | topBytes (offset : Position)
  | topNumber (offset : Position) (minimal : Bool)
  | last
  | bytesAt (index : Position)
  | needAtLeast (n : Except Misuse Quantity)
  | push (entry : Except Kind Entry)
  | pushNumber (value : Except Kind Int)
  | pushBytes (data : Except Misuse Bytes)
  | pop
  | popN (n : Except Misuse Quantity)
  | popBytes
  | popNumber (minimal : Bool)
  | removeAt (index : Position)
  | commit
  | display
  | json
  | table

inductive Answer where
  | nothing
  | flag (b : Bool)
  | integer (n : Int)
  | bytes (data : Bytes)
  | text (s : String)
  | entry (e : Entry)
  | table (rows : List (Nat × Content))
  deriving DecidableEq, Repr

structure Outcome where
  heap : Heap
  stack : Stack
  attempt : Attempt Answer

namespace Outcome

def read {α : Type} (h : Heap) (s : Stack) (x : Attempt α) (answer : α → Answer) : Outcome :=
  ⟨h, s, x.bind fun a => .done (answer a)⟩

/-- An operation that checks first and acts then. Where the check fails, nothing is done yet. -/
def after {α : Type} (h : Heap) (s : Stack) (check : Attempt α) (act : α → Outcome) : Outcome :=
  match check.result with
  | .error fault => ⟨h, s, ⟨check.log, .error fault⟩⟩
  | .ok a =>
    let o := act a
    ⟨o.heap, o.stack, ⟨check.log ++ o.attempt.log, o.attempt.result⟩⟩

section After

variable {α : Type} {h : Heap} {s : Stack} {check : Attempt α} {act : α → Outcome}

theorem after_ok {a : α} (hc : check.result = .ok a) : after h s check act =
    ⟨(act a).heap, (act a).stack, ⟨check.log ++ (act a).attempt.log, (act a).attempt.result⟩⟩ := by
  simp only [after, hc]

theorem after_error {fault : Fault} (hc : check.result = .error fault) :
    after h s check act = ⟨h, s, ⟨check.log, .error fault⟩⟩ := by
  simp only [after, hc]

theorem after_done (a : α) : after h s (.done a) act = act a := rfl

end After

end Outcome

namespace StackOp

def topmost : Position := .ofInt (-1)

def pushGiven (h : Heap) (s : Stack) : Except Kind Entry → Outcome
  | .ok e => ⟨h, s.push e, .done .nothing⟩
  | .error kind => ⟨h, s, .fail (.entryExpected kind)⟩

def pushNumberGiven (h : Heap) (s : Stack) : Except Kind Int → Outcome
  | .ok v =>
    let (h, e) := Entry.ofNumber h v
    ⟨h, s.push e, .done .nothing⟩
  | .error kind => ⟨h, s, .fail (.numberExpected kind)⟩

def pushBytesGiven (h : Heap) (s : Stack) : Except Misuse Bytes → Outcome
  | .ok data =>
    let (h, e) := Entry.ofBytes h data
    ⟨h, s.push e, .done .nothing⟩
  | .error cause => ⟨h, s, .fail (.misuse cause)⟩

def popTop (h : Heap) (s : Stack) : Outcome :=
  match s.entries with
  | [] => ⟨h, s, .done .nothing⟩
  | e :: _ => ⟨h, s.drop 1, .done (.entry e)⟩

/-- Takes the top entry off before it is read, so it is gone also where reading fails. -/
def consume {α : Type} (h : Heap) (s : Stack) (read : Entry → Except Fault α)
    (answer : α → Answer) : Outcome :=
  match s.entries with
  | [] => ⟨h, s, .fail Stack.emptyPop⟩
  | e :: _ => .read h (s.drop 1) (.ofExcept (read e)) answer

def commitAll (h : Heap) (s : Stack) : Outcome :=
  .after h s (s.commitment h) fun data => ⟨h, .empty, .done (.bytes data)⟩

def run (h : Heap) (s : Stack) : StackOp → Outcome
  | height => .read h s (.done s.height) fun n => .integer n
  | isEmpty => .read h s (.done (s.height == 0)) .flag
  | hasEntries => .read h s (.done (s.height != 0)) .flag
  | top offset => .read h s (s.top offset) .entry
  | topBytes offset => .read h s (s.top offset) fun e => .bytes (e.toBytes h)
  | topNumber offset minimal =>
    .read h s ((s.top offset).bind fun e => .ofExcept (e.toNumber h minimal)) .integer
  | last => .read h s (s.top topmost) fun e => .bytes (e.toBytes h)
  | bytesAt index => .read h s (s.entryAt index) fun e => .bytes (e.toBytes h)
  | needAtLeast n => .read h s ((Attempt.ofGiven n).bind s.needAtLeast) fun _ => .nothing
  | push entry => pushGiven h s entry
  | pushNumber value => pushNumberGiven h s value
  | pushBytes data => pushBytesGiven h s data
  | pop => popTop h s
  | popN n => .after h s ((Attempt.ofGiven n).bind s.removal) fun k => ⟨h, s.drop k, .done .nothing⟩
  | popBytes => consume h s (fun e => .ok (e.toBytes h)) .bytes
  | popNumber minimal => consume h s (Entry.toNumber h minimal) .integer
  | removeAt index => .after h s (s.depthOf index) fun d => ⟨h, s.eraseAt d, .done .nothing⟩
  | commit => commitAll h s
  | display => .read h s (.ofText (s.display? h)) .text
  | json => .read h s (.ofText (s.json? h)) .text
  | table => .read h s (.done (s.table h)) .table

end StackOp

end ScriptStack
