import ScriptStack.Fault
import ScriptStack.Vocabulary

/-! Severity levels, the names they are asked for by, and the records that carry them. -/
namespace ScriptStack.Log

/-- A flag in the place of a level counts as a level below all that have a name. -/
inductive Level where
  | notSet | flag | debug | info | warning | error | critical
  deriving DecidableEq, Repr

namespace Level

def number : Level → Nat
  | notSet => 0
  | flag => 1
  | debug => 10
  | info => 20
  | warning => 30
  | error => 40
  | critical => 50

def name : Level → String
  | notSet => "NOTSET"
  | flag => "Level " ++ Quantity.flagText true
  | debug => "DEBUG"
  | info => "INFO"
  | warning => "WARNING"
  | error => "ERROR"
  | critical => "CRITICAL"

def numberText : Level → String
  | flag => Quantity.flagText true
  | level => Decimal.natText level.number

end Level

inductive Word where
  | level (level : Level)
  | text
  | thing
  deriving DecidableEq, Repr

/-- Two of the levels have a second name. A layout, the table of layout styles and the flags that
say what records keep have names too. -/
def Word.ofName? : String → Option Word
  | "NOTSET" => some (.level .notSet)
  | "DEBUG" => some (.level .debug)
  | "INFO" => some (.level .info)
  | "WARNING" => some (.level .warning)
  | "WARN" => some (.level .warning)
  | "ERROR" => some (.level .error)
  | "CRITICAL" => some (.level .critical)
  | "FATAL" => some (.level .critical)
  | "logMultiprocessing" => some (.level .flag)
  | "logProcesses" => some (.level .flag)
  | "logThreads" => some (.level .flag)
  | "BASIC_FORMAT" => some .text
  | "_STYLES" => some .thing
  | name => if Vocabulary.besideLevels.contains name then some .thing else none

namespace Level

/-- Upper case, where that is ASCII: of the ASCII letters, of the dotless `ı`, and of the long `ſ`
and the letters that are joined from others. Every other letter stays what it is, for no name of a
level contains one. -/
def upper (c : Char) : List Char :=
  match c with
  | 'ı' => ['I']
  | 'ſ' => ['S']
  | 'ß' => ['S', 'S']
  | 'ﬀ' => ['F', 'F']
  | 'ﬁ' => ['F', 'I']
  | 'ﬂ' => ['F', 'L']
  | 'ﬃ' => ['F', 'F', 'I']
  | 'ﬄ' => ['F', 'F', 'L']
  | 'ﬅ' => ['S', 'T']
  | 'ﬆ' => ['S', 'T']
  | c => [c.toUpper]

def upperName (name : String) : String := String.ofList (name.toList.flatMap upper)

/-- The level of a name written in any case. A text would be the name of a level, but it is none. -/
def ofAnyCase (name : String) : Except Misuse Level :=
  match Word.ofName? (upperName name) with
  | some (.level level) => .ok level
  | some .text => .error .badValue
  | some .thing => .error .wrongKind
  | none => .error .noMember

theorem ofName?_name {level : Level} (h : level ≠ .flag) :
    Word.ofName? level.name = some (.level level) := by
  cases level <;> first | rfl | exact absurd rfl h

theorem upperName_name {level : Level} (h : level ≠ .flag) :
    upperName level.name = level.name := by
  cases level <;> first | decide | exact absurd rfl h

theorem ofAnyCase_name {level : Level} (h : level ≠ .flag) : ofAnyCase level.name = .ok level := by
  rw [ofAnyCase, upperName_name h, ofName?_name h]

end Level

structure Record where
  logger : String
  level : Level
  message : String
  deriving DecidableEq, Repr

def Record.passes (record : Record) (threshold : Level) : Bool :=
  threshold.number ≤ record.level.number

end ScriptStack.Log
