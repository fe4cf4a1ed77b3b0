import ScriptStack.Bytes.Hex

/-! The limits that scripts are held to. -/
namespace ScriptStack.Limits

def numberBytes : Nat := 4

def maxSigned : Int := 0x7fffffff

def maxUnsigned : Int := 0xffffffff

def commitmentWidth : Nat := 4

def logLevel : String := "INFO"

def commonValues : List (Int × Bytes) := [(-1, [0x81]), (0, [])]

end ScriptStack.Limits
