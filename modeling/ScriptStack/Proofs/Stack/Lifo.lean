import ScriptStack.Proofs.Stack.Sequence

/-! Last in, first out: an operation puts one entry on top, or takes entries off the top, unless it
removes at a place or commits. -/
namespace ScriptStack.StackOp

def pushed? (h : Heap) : StackOp → Option Entry
  | push (.ok e) => some e
  | pushNumber (.ok _) | pushBytes (.ok _) => some h.nextEntry
  | _ => none

/-- An operation that works on the top alone. -/
def AtTop : StackOp → Prop
  | removeAt _ | commit => False
  | _ => True

variable {h : Heap} {op : StackOp} {e : Entry}

theorem onSequence_of_pushed (hp : op.pushed? h = some e) (slots : List Entry) :
    op.onSequence h slots = slots ++ [e] := by
  cases op with
  | push given | pushNumber given | pushBytes given =>
    cases given <;> cases hp
    rfl
  | _ => cases hp

theorem onSequence_prefix (hp : op.pushed? h = none) (hop : op.AtTop) (slots : List Entry) :
    op.onSequence h slots <+: slots := by
  cases op with
  | push given | pushNumber given | pushBytes given =>
    cases given with
    | ok _ => cases hp
    | error _ => exact List.prefix_refl slots
  | pop | popBytes | popNumber => exact List.dropLast_prefix slots
  | popN given =>
    cases given with
    | error _ => exact List.prefix_refl slots
    | ok q =>
      rw [onSequence]
      split
      · split
        · exact List.take_prefix _ slots
        · exact List.prefix_refl slots
      · exact List.prefix_refl slots
  | removeAt | commit => cases hop
  | height | isEmpty | hasEntries | top | topBytes | topNumber | last | bytesAt | needAtLeast
  | display | json | table => exact List.prefix_refl slots

end ScriptStack.StackOp
