import ScriptStack.Fault
import ScriptStack.Number.Encoding

/-! Reading script numbers under a limit on their size. -/
namespace ScriptStack.Number

def defaultLimit : Quantity := .integer Limits.numberBytes

def checkSize (limit : Quantity) (size : Nat) : Except Fault Unit :=
  if limit.below size then .error (Fault.numberTooLong size limit).raised else .ok ()

/-- The size is checked first, so a long encoding is too long whatever its bytes are. -/
def read (data : Bytes) (limit : Quantity) (minimal : Bool) : Except Fault Int := do
  checkSize limit data.length
  if minimal && !isMinimal data then .error (.notMinimal data) else .ok (decode data)

theorem read_of_below {data : Bytes} {limit : Quantity} (h : limit.below data.length = true)
    (minimal : Bool) :
    read data limit minimal = .error (Fault.numberTooLong data.length limit).raised := by
  simp [read, checkSize, h, bind, Except.bind]

theorem read_of_fits {data : Bytes} {limit : Quantity} (h : limit.below data.length = false)
    (minimal : Bool) : read data limit minimal =
      if minimal && !isMinimal data then .error (.notMinimal data) else .ok (decode data) := by
  simp [read, checkSize, h, bind, Except.bind]

end ScriptStack.Number
