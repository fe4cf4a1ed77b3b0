import ScriptStack.Bytes.LittleEndian

/-! Byte strings cut into blocks of one width. -/
namespace ScriptStack.Bytes

variable {width count : Nat} {data : Bytes}

/-- The first `count` blocks of a string, one after another. -/
def blocks (width : Nat) : (count : Nat) → Bytes → List Bytes
  | 0, _ => []
  | count + 1, data => data.take width :: blocks width count (data.drop width)

theorem length_blocks (width count : Nat) (data : Bytes) :
    (blocks width count data).length = count := by
  induction count generalizing data with
  | zero => rfl
  | succ count ih => simp [blocks, ih]

theorem flatten_blocks (h : data.length = width * count) :
    (blocks width count data).flatten = data := by
  induction count generalizing data with
  | zero => exact (List.eq_nil_of_length_eq_zero h).symm
  | succ count ih =>
    have hrest : (data.drop width).length = width * count := by
      simp [h, Nat.mul_succ]
    rw [blocks, List.flatten_cons, ih hrest, List.take_append_drop]

theorem length_of_mem_blocks (h : data.length = width * count) {block : Bytes}
    (hb : block ∈ blocks width count data) : block.length = width := by
  induction count generalizing data with
  | zero => simp [blocks] at hb
  | succ count ih =>
    have hrest : (data.drop width).length = width * count := by
      simp [h, Nat.mul_succ]
    obtain rfl | hb := List.mem_cons.mp hb
    · simp [h, Nat.mul_succ]
    · exact ih hrest hb

theorem padTo_of_length (h : data.length = width) : data.padTo width = data := by
  simp [padTo, h]

end ScriptStack.Bytes
