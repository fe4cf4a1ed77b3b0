import ScriptStack.Log.Path

/-! The directories and files that logs are written to. -/
namespace ScriptStack.Log

inductive Node where
  | directory (entries : List (String × Node))
  | file (text : String)

namespace Node

def entries : Node → List (String × Node)
  | directory entries => entries
  | file _ => []

def at? : Node → Path → Option Node
  | node, [] => some node
  | node, name :: rest => (node.entries.lookup name).bind fun below => at? below rest

def putEntry (name : String) (node : Node) : List (String × Node) → List (String × Node)
  | [] => [(name, node)]
  | row :: rest => if row.1 = name then (name, node) :: rest else row :: putEntry name node rest

def set (new : Node) : Node → Path → Node
  | _, [] => new
  | node, name :: rest =>
    let below := (node.entries.lookup name).getD (.directory [])
    .directory (putEntry name (set new below rest) node.entries)

end Node

inductive FileFault where
  | existsAlready | belowFile | isDirectory | missing | tooLong | tooDeep | unreadableName
  deriving DecidableEq, Repr

structure Files where
  top : Node

namespace Files

def empty : Files := ⟨(Node.directory []).set (.directory []) Path.home⟩

def node? (files : Files) (path : Path) : Option Node := files.top.at? path

def set (files : Files) (path : Path) (node : Node) : Files := ⟨node.set files.top path⟩

def enter (files : Files) (reached : Path) (name : String) : Except FileFault Path :=
  if name = ".." then .ok reached.dropLast
  else if Path.longestName < name.utf8ByteSize then .error .tooLong
  else match files.node? (reached ++ [name]) with
    | some (.directory _) => .ok (reached ++ [name])
    | some (.file _) => .error .belowFile
    | none => .error .missing

def enterAll (files : Files) (reached : Path) : Path → Except FileFault Path
  | [] => .ok reached
  | name :: rest => do files.enterAll (← files.enter reached name) rest

def locate (files : Files) (path : Path) : Except FileFault (Path × Option Node) :=
  if !path.isReadable then .error .unreadableName
  else if Path.longestPath < path.size then .error .tooLong
  else match path.getLast? with
    | none => .ok ([], some files.top)
    | some name => do
      let above ← files.enterAll [] path.dropLast
      let place := above.descend name
      if Path.longestName < name.utf8ByteSize then .error .tooLong
      else .ok (place, files.node? place)

def longestChain : Nat := 989

/-- Goes down a path and makes the directories that are missing. Once one has been made, the others
are asked for one by one, so that a file among them is in the way and not above. -/
def fill (files : Files) (reached : Path) (made : Bool) : Path → Files × Except FileFault Unit
  | [] => (files, .ok ())
  | name :: rest =>
    if name = ".." then files.fill reached.dropLast made rest
    else if Path.longestName < name.utf8ByteSize then (files, .error .tooLong)
    else
      let place := reached ++ [name]
      match files.node? place with
      | some (.directory _) => files.fill place made rest
      | some (.file _) =>
        (files, .error (if made || rest.isEmpty then .existsAlready else .belowFile))
      | none =>
        if !made && longestChain ≤ rest.length then (files, .error .tooDeep)
        else (files.set place (.directory [])).fill place true rest

/-- Makes a directory and those above it that are missing. Those that are made before a fault stay,
also where the path leads up out of them again. -/
def ensureDirectories (files : Files) (path : Path) : Files × Except FileFault Unit :=
  if !path.isReadable then (files, .error .unreadableName)
  else if Path.longestPath < path.size then (files, .error .tooLong)
  else files.fill [] false path

def openFile (files : Files) (path : Path) : Except FileFault (Files × Path) := do
  match ← files.locate path.direct with
  | (_, some (.directory _)) => .error .isDirectory
  | (place, some (.file _)) => .ok (files, place)
  | (place, none) => .ok (files.set place (.file ""), place)

def prepare (files : Files) (path : Path) : Files × Except FileFault Path :=
  match files.ensureDirectories path.dropLast with
  | (files, .error fault) => (files, .error fault)
  | (files, .ok ()) =>
    match files.openFile path with
    | .ok (files, place) => (files, .ok place)
    | .error fault => (files, .error fault)

def append (files : Files) (place : Path) (text : String) : Files :=
  match files.node? place with
  | some (.file old) => files.set place (.file (old ++ text))
  | _ => files

def read (files : Files) (path : Path) : Except FileFault String := do
  match ← files.locate path with
  | (_, some (.file text)) => .ok text
  | (_, some (.directory _)) => .error .isDirectory
  | (_, none) => .error .missing

end Files

end ScriptStack.Log
