/-! Tables with a name for each row, in the order in which the names came up. -/
namespace ScriptStack

abbrev Table (α : Type) := List (String × α)

namespace Table

variable {α : Type}

def get? : Table α → String → Option α
  | [], _ => none
  | (n, a) :: rest, name => if n = name then some a else get? rest name

def set : Table α → String → α → Table α
  | [], name, a => [(name, a)]
  | (n, b) :: rest, name, a => if n = name then (n, a) :: rest else (n, b) :: set rest name a

theorem get?_set_self (t : Table α) (name : String) (a : α) :
    (t.set name a).get? name = some a := by
  induction t with
  | nil => simp [set, get?]
  | cons row rest ih => by_cases h : row.1 = name <;> simp [set, get?, h, ih]

theorem get?_set_of_ne (t : Table α) {name other : String} (h : other ≠ name) (a : α) :
    (t.set name a).get? other = t.get? other := by
  induction t with
  | nil => simp [set, get?, h.symm]
  | cons row rest ih =>
    by_cases hn : row.1 = name
    · subst hn
      simp [set, get?, h.symm]
    · by_cases ho : row.1 = other
      · subst ho
        simp [set, get?, hn]
      · simp [set, get?, hn, ho, ih]

end Table

end ScriptStack
