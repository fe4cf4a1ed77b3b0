import ScriptStack.Value.Number

/-! When two values are equal, and how many different ones a list holds. -/
namespace ScriptStack.Value

def sameQuantity : Quantity → Quantity → Bool
  | .real x, .real y => x.same y
  | .real x, .integer n => x.compareInt? n == some .eq
  | .real x, .flag b => x.compareInt? (Quantity.flagValue b) == some .eq
  | .real _, .number _ => false
  | .integer m, q => q.compareInt? m == some .eq
  | .flag b, q => q.compareInt? (Quantity.flagValue b) == some .eq
  | .number m, q => q.compareInt? m == some .eq

/-- Equality of values that are not lists. A script number equals numbers and encodings, entries
equal entries, stacks equal stacks; bytes of any sort are equal by content. -/
def samePlain (σ : Store) (a b : Value) : Except Fault Bool :=
  match a, b with
  | number n, b => n.relate .eq (b.comparand σ.heap)
  | a, number n => n.relate .eq (a.comparand σ.heap)
  | entry e, entry f => .ok (e.same σ.heap f)
  | stack i, stack j => .ok ((σ.stack i).same σ.heap (σ.stack j))
  | text s, text t => .ok (s == t)
  | nothing, nothing => .ok true
  | a, b =>
    match a.octets? σ.heap, b.octets? σ.heap, a.quantity, b.quantity with
    | some x, some y, _, _ => .ok (x == y)
    | _, _, .ok x, .ok y => .ok (sameQuantity x y)
    | _, _, _, _ => .ok false

/-- Whether two values are one and the same real number, made once. Inside a list it counts as equal
to itself, also if it is the one that equals nothing. -/
def identical : Value → Value → Bool
  | real _ i, real _ j => i == j
  | _, _ => false

mutual

def same (σ : Store) : Value → Value → Except Fault Bool
  | list xs, list ys => if xs.length = ys.length then sameItems σ xs ys else .ok false
  | a, b => samePlain σ a b

def sameItems (σ : Store) : List Value → List Value → Except Fault Bool
  | x :: xs, y :: ys => do
    if x.identical y then sameItems σ xs ys
    else if ← same σ x y then sameItems σ xs ys
    else .ok false
  | _, _ => .ok true

end

theorem same_stack (σ : Store) (i j : StackId) :
    same σ (.stack i) (.stack j) = .ok true ↔ (σ.stack i).same σ.heap (σ.stack j) = true := by
  simp [same, samePlain]

/-- Where a value is looked up in a set: only values with one key are compared at all. Numbers are
found by their worth, bytes apart from numbers, except that no bytes are found where zero is. A real
that is no number is found by its identity alone. -/
inductive Key where
  | worth (n : Int)
  | fraction (x : Binary64)
  | unequal (id : RealId)
  | octets (data : Bytes)
  | text (s : String)
  | nothing
  deriving DecidableEq, Repr

def key (h : Heap) : Value → Except Misuse Key
  | nothing => .ok .nothing
  | flag b => .ok (.worth (Quantity.flagValue b))
  | integer v => .ok (.worth v)
  | text s => .ok (.text s)
  | real .nan id => .ok (.unequal id)
  | real x _ => .ok (x.integer?.elim (.fraction x) .worth)
  | bytes data => .ok (if data.isEmpty then .worth 0 else .octets data)
  | memory data => .ok (if data.isEmpty then .worth 0 else .octets data)
  | number n => .ok (.worth n.value)
  | entry e => (e.number? h).elim (.error .wrongKind) fun v => .ok (.worth v)
  | _ => .error .wrongKind

def isKept (σ : Store) (k : Key) (v : Value) : List (Key × Value) → Except Fault Bool
  | [] => .ok false
  | (k', v') :: rest =>
    if k' = k then do
      if v'.identical v then .ok true
      else if ← same σ v' v then .ok true
      else isKept σ k v rest
    else isKept σ k v rest

def keptValues (σ : Store) (kept : List (Key × Value)) :
    List Value → Except Fault (List (Key × Value))
  | [] => .ok kept
  | v :: rest => do
    let k ← Misuse.lift (v.key σ.heap)
    if ← isKept σ k v kept then keptValues σ kept rest else keptValues σ (kept ++ [(k, v)]) rest

def setSize (σ : Store) (items : List Value) : Except Fault Nat :=
  (keptValues σ [] items).map List.length

end ScriptStack.Value
