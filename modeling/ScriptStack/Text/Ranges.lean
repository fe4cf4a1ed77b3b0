/-! Sets of characters as ranges of code points. -/
namespace ScriptStack.Ranges

def contains (ranges : List (Nat × Nat)) (n : Nat) : Bool :=
  ranges.any fun (first, last) => first ≤ n && n ≤ last

end ScriptStack.Ranges
