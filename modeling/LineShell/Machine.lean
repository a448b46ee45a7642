import LineShell.Files.Tree
import LineShell.Text.NameSet

/-!
# The machine around the shell

What the shell finds when it starts: files, a current directory, and an environment.

* `Environment` — variables as the system keeps them, names and values being bytes.
* **`Machine`** — the files, the place the shell stands at, and the environment.
* `Machine.commandNames` — the programs that a list of directories offers.
-/

namespace LineShell

/-- The variables that a process is started with. -/
abbrev Environment := List (Bytes × Bytes)

def Environment.get? (env : Environment) (name : String) : Option Bytes :=
  env.lookup (Bytes.ofString name)

/-- The variables as programs are given them. -/
def Environment.strings (env : Environment) : List Bytes :=
  env.map fun v => v.1 ++ 0x3D :: v.2

/-- What the shell runs on. -/
structure Machine where
  files : FileTree
  place : Place
  environment : Environment
  /-- The home directory that is on record for the user. -/
  recordedHome : Option Bytes
  deriving DecidableEq, Repr

namespace Machine

/-- The home directory: the variable `HOME` unless it is empty, else the one on record. -/
def home (m : Machine) : Option Bytes :=
  match m.environment.get? "HOME" with
  | none | some [] => m.recordedHome
  | some h => some h

/-- The directories of programs, separated by colons. -/
def searchPath (m : Machine) : Bytes :=
  (m.environment.get? "PATH").getD []

/-- The table of styles for file names, where it is set and is text. -/
def lsColors? (m : Machine) : Option String :=
  (m.environment.get? "LS_COLORS").bind Bytes.text?

/-- The same machine with another list of directories of programs. -/
def withSearchPath (m : Machine) (path : Bytes) : Machine :=
  { m with environment := (Bytes.ofString "PATH", path) ::
      m.environment.filter (·.1 ≠ Bytes.ofString "PATH") }

/-- The entries of a directory, as they are shown. -/
def list (m : Machine) (dir : String) : Except FileError (List Entry) :=
  m.files.entries m.place (Bytes.ofString dir)

def pathExists (m : Machine) (path : Bytes) : Bool :=
  m.files.pathExists m.place path

def readText (m : Machine) (path : Bytes) : Except FileError String :=
  m.files.readText m.place path

/-- The current directory as a path; none where it has been removed. -/
def currentDirectory (m : Machine) : Option Bytes :=
  match m.files.node? m.place with
  | some (.directory _) => some (Path.slash :: Path.Spelled.spell m.place)
  | _ => none

/-! ## Programs by name -/

/-- The directories that a search path lists, the empty ones left out. -/
def searchDirectories (path : Bytes) : List Bytes :=
  (path.splitOn 0x3A).filter (· ≠ [])

/-- The names in a directory that lead to files that can be run, through links or not.  A directory
that cannot be listed has none. -/
def executables (m : Machine) (dir : Bytes) : List String :=
  match m.files.list m.place dir with
  | .error _ => []
  | .ok nodes => nodes.filterMap fun n =>
    match m.files.stat m.place (Path.join dir n.1) with
    | .ok target => if target.isExecutable then some n.1.lossy else none
    | .error _ => none

def commandNames (m : Machine) (path : Bytes) : NameSet :=
  NameSet.ofList ((searchDirectories path).flatMap m.executables)

end Machine

end LineShell
