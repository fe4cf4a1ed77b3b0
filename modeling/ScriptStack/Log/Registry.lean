import ScriptStack.Limits
import ScriptStack.Log.Files
import ScriptStack.Log.Line

/-! Loggers by dotted names, their configuration, and the way of a record to the handlers. -/
namespace ScriptStack.Log

inductive Handler where
  | console (layout : Layout)
  | file (place : Path) (layout : Layout)
  deriving DecidableEq

/-- A logger passes its records on to its parent; the outermost one has none. It knows which levels
it has let through and which not, and keeps to that until the level of any logger is set. -/
structure Logger where
  level : Level
  handlers : List Handler
  parent : String
  decided : List (Level × Bool)
  deriving DecidableEq

def Logger.forget (logger : Logger) : Logger := { logger with decided := [] }

structure Registry where
  loggers : List (String × Logger)
  root : Logger
  files : Files

inductive Target where
  | none
  | path (path : Path)
  | text (text : String)
  deriving DecidableEq, Repr

structure Request where
  name : String
  level : String
  layout : Option String
  target : Target

inductive ConfigFault where
  | level (cause : Misuse)
  | emptyLayout
  | notAPath
  | file (fault : FileFault)
  deriving DecidableEq, Repr

def rootName : String := "root"

def isRootName (name : String) : Bool := name == "" || name == rootName

/-- What stands before the dots of a name, which is given and answered in reverse, the longest part
first. The search steps over the character before a dot, so of two dots in a row one counts. -/
def partsAbove : List Char → List (List Char)
  | [] => []
  | '.' :: c :: rest => (c :: rest) :: partsAbove rest
  | _ :: rest => partsAbove rest

def parentNames (name : String) : List String :=
  (partsAbove name.toList.reverse).map fun part => String.ofList part.reverse

def isAbove (name other : String) : Bool :=
  other.startsWith name && (parentNames other).contains name

namespace Registry

def start : Registry := ⟨[], ⟨.warning, [], "", []⟩, .empty⟩

def find? (r : Registry) (name : String) : Option Logger :=
  if isRootName name then some r.root else (r.loggers.find? (·.1 == name)).map (·.2)

def parentOf (r : Registry) (name : String) : String :=
  ((parentNames name).find? fun p => (r.loggers.find? (·.1 == p)).isSome).getD rootName

/-- A new logger comes between the loggers below it and their parents further up. A parent whose
name starts with the new one is taken to lie between already. -/
def adopt (name : String) (row : String × Logger) : String × Logger :=
  if isAbove name row.1 && !row.2.parent.startsWith name then
    (row.1, { row.2 with parent := name })
  else row

def ensure (r : Registry) (name : String) : Registry × Logger :=
  match r.find? name with
  | some logger => (r, logger)
  | none =>
    let logger : Logger := ⟨.notSet, [], r.parentOf name, []⟩
    ({ r with loggers := r.loggers.map (adopt name) ++ [(name, logger)] }, logger)

def update (r : Registry) (name : String) (f : Logger → Logger) : Registry :=
  if isRootName name then { r with root := f r.root }
  else { r with loggers := r.loggers.map fun row => if row.1 == name then (name, f row.2) else row }

def forget (r : Registry) : Registry :=
  { r with
    loggers := r.loggers.map fun (name, logger) => (name, logger.forget)
    root := r.root.forget }

def setLevel (r : Registry) (name : String) (level : Level) : Registry :=
  (r.update name fun logger => { logger with level := level }).forget

def addHandler (r : Registry) (name : String) (handler : Handler) : Registry :=
  r.update name fun logger => { logger with handlers := logger.handlers ++ [handler] }

def chainWithin (r : Registry) : Nat → String → List Logger
  | 0, _ => []
  | steps + 1, name =>
    if isRootName name then [r.root]
    else match r.find? name with
      | some logger => logger :: chainWithin r steps logger.parent
      | none => []

def chain (r : Registry) (name : String) : List Logger :=
  r.chainWithin (r.loggers.length + 1) name

def effectiveLevel (r : Registry) (name : String) : Level :=
  (((r.chain name).map Logger.level).find? (· ≠ .notSet)).getD .notSet

/-- Whether a logger lets a record through. Records without a level are never made. A logger that
has decided on a level before does not look at the levels again. -/
def isEnabled (r : Registry) (record : Record) : Bool :=
  let decided := (r.find? record.logger).bind fun logger => logger.decided.lookup record.level
  decided.getD (record.level ≠ .notSet && record.passes (r.effectiveLevel record.logger))

def learn (r : Registry) (record : Record) : Registry :=
  let row := (record.level, r.isEnabled record)
  r.update record.logger fun logger =>
    if logger.decided.contains row then logger else { logger with decided := row :: logger.decided }

def deliver (record : Record) (time : String) (state : Registry × String) (handler : Handler) :
    Registry × String :=
  let (r, out) := state
  match handler with
  | .console layout => (r, out ++ (layout.line? record time).getD "")
  | .file place layout =>
    ({ r with files := r.files.append place ((layout.line? record time).getD "") }, out)

/-- Hands a record to the handlers of its logger and of all above it, whatever their levels. -/
def emit (r : Registry) (record : Record) (time : String) : Registry × String :=
  ((r.chain record.logger).flatMap Logger.handlers).foldl (deliver record time) (r, "")

def log (r : Registry) (name : String) (level : Level) (message time : String) :
    Registry × String :=
  let r := (r.ensure name).1
  let record : Record := ⟨if isRootName name then rootName else name, level, message⟩
  let r := r.learn record
  if r.isEnabled record then r.emit record time else (r, "")

def logAt (r : Registry) (name level message time : String) :
    Registry × Except ConfigFault String :=
  match Word.ofName? level with
  | some (.level level) =>
    let (r, out) := r.log name level message time
    (r, .ok out)
  | some _ => ((r.ensure name).1, .ok "")
  | none => ((r.ensure name).1, .error (.level .noMember))

def layoutOf (text : Option String) : Except ConfigFault Layout :=
  match text with
  | none => .ok .standard
  | some text => (Layout.ofText? text).elim (.error .emptyLayout) .ok

def addFile (r : Registry) (name : String) (path : Path) (layout : Layout) :
    Registry × Except ConfigFault Unit :=
  match r.files.prepare path with
  | (files, .error fault) => ({ r with files := files }, .error (.file fault))
  | (files, .ok place) =>
    ({ r with files := files }.addHandler name (.file place layout), .ok ())

def addTarget (r : Registry) (name : String) (layout : Layout) :
    Target → Registry × Except ConfigFault Unit
  | .none => (r, .ok ())
  | .path path => r.addFile name path layout
  | .text text => (r, if text.isEmpty then .ok () else .error .notAPath)

/-- Configures a logger that has no handlers yet; one that has some stays as it is. The steps are
taken in order, and a fault leaves done what came before it. -/
def configure (r : Registry) (request : Request) : Registry × Except ConfigFault Logger :=
  let (r, logger) := r.ensure request.name
  if !logger.handlers.isEmpty then (r, .ok logger)
  else match Level.ofAnyCase request.level with
    | .error cause => (r, .error (.level cause))
    | .ok level =>
      let r := r.setLevel request.name level
      match layoutOf request.layout with
      | .error fault => (r, .error fault)
      | .ok layout =>
        let r := r.addHandler request.name (.console layout)
        let (r, done) := r.addTarget request.name layout request.target
        match done with
        | .error fault => (r, .error fault)
        | .ok () => (r, .ok (r.ensure request.name).2)

def defaultLevel : String := Limits.logLevel

end Registry

end ScriptStack.Log
