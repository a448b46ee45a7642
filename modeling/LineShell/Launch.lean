import LineShell.Launch.Effects
import LineShell.Launch.Interpreter
import LineShell.Machine

/-!
# Starting programs

A command that is neither built in nor a function is a program, looked for on the search path and
started.  A script is run by its interpreter, which may be a script in turn.

* `roomLeft?` — the room that is left beside the strings that a program is given.
* `Machine.openProgram` — the file at a path, if it may be run.
* `Machine.interpret` — the program that a file comes down to.
* `Machine.find` — the program that a command names, or why there is none.
* **`Machine.launch`** — the machine after a program has run.
-/

namespace LineShell

/-- A file that may be run: its content, and the known program that it is, if it is one. -/
structure ProgramFile where
  content : Bytes
  program : Option Program
  deriving DecidableEq, Repr

/-- What a command comes down to: a known program, and the arguments that it is given in front of
those of the command. -/
structure Startable where
  program : Program
  leading : List Bytes
  deriving DecidableEq, Repr

/-- The longest string that a program is given, in bytes. -/
def maxString : Nat := 131071

/-- The room for the strings that a program is given, in bytes. -/
def maxRoom : Nat := 2097152

/-- The room that strings take, each with a NUL behind it. -/
def roomOf (strings : List Bytes) : Nat :=
  strings.foldr (fun s room => s.length + 1 + room) 0

/-- The room that is left when a program is given its path and some strings: its name, its arguments
and its variables.  A word of eight bytes points at each of them.  None is left where they do not
fit. -/
def roomLeft? (path : Bytes) (strings : List Bytes) : Option Nat :=
  let needed := roomOf (path :: strings) + 8 * strings.length
  if strings.all (·.length ≤ maxString) && needed ≤ maxRoom then some (maxRoom - needed) else none

namespace Machine

/-- The file that a path names, or why it may not be run: it has to be a regular file that its owner
may execute. -/
def openProgram (m : Machine) (path : Bytes) : Except FileError ProgramFile := do
  let node ← m.files.stat m.place path
  match node with
  | .file content rights program =>
    if rights.ownerMay .execute then .ok ⟨content, program⟩ else .error .permissionDenied
  | _ => .error .permissionDenied

/-- The number of scripts that may run one another. -/
def maxScripts : Nat := 5

/-- The program that a file at a path comes down to, where at most `scripts` scripts may run one
another.  An interpreter is given its own name, its argument and the path of the script, which all
have to fit into the room that is left and that of the name which they take the place of. -/
def interpret (m : Machine) (scripts room : Nat) (name path : Bytes) (file : ProgramFile) :
    Except FileError Startable :=
  match file.program with
  | some p => .ok ⟨p, []⟩
  | none =>
    match Interpreter.ofContent? file.content with
    | none => .error .badFormat
    | some i => do
      let leading := i.argument.toList ++ [path]
      let room := room + roomOf [name]
      let needed := roomOf (i.name :: leading)
      if room < needed then .error .argumentsTooLong
      else
        let next ← m.openProgram i.path
        match scripts with
        | 0 => .error .tooManyLinks
        | scripts + 1 =>
          let s ← m.interpret scripts (room - needed) i.name i.name next
          return { s with leading := s.leading ++ leading }

/-- What comes of starting the file at a path with a name and arguments, or why it cannot be
started. -/
def start (m : Machine) (words : List Bytes) (path : Bytes) : Except FileError Startable := do
  let file ← m.openProgram path
  match roomLeft? path (words ++ m.environment.strings) with
  | none => .error .argumentsTooLong
  | some room => m.interpret maxScripts room (words.headD []) path file

/-- Tries the directories of a search path in order.  A file that is not there or may not be run
is passed over, any other trouble ends the search.  In the end a refusal counts more than the last
absence.  A directory that is no possible path counts as empty, and as nothing at the end; the empty
one is the current directory. -/
def search (m : Machine) (words : List Bytes) (name : Bytes) (refused : Bool) (last : FileError)
    (dirs : List Bytes) : Except FileError Startable :=
  let failure := if refused then .permissionDenied else last
  match dirs with
  | [] => .error failure
  | dir :: dirs =>
    let unusable := FileTree.maxPath < dir.length
    if unusable ∧ dirs = [] then .error failure
    else
      match m.start words (if dir = [] ∨ unusable then name else dir ++ Path.slash :: name) with
      | .ok s => .ok s
      | .error .permissionDenied => m.search words name true .permissionDenied dirs
      | .error .notFound => m.search words name refused .notFound dirs
      | .error .notDirectory => m.search words name refused .notDirectory dirs
      | .error e => .error e

/-- The program that a command names.  A name with a slash is a path; any other is looked for on
the search path, and one byte more than a name can have is enough to see that it is none. -/
def find (m : Machine) (name : Bytes) (args : List Bytes) : Except FileError Startable :=
  let words := name :: args
  if name.contains Path.slash then m.start words name
  else if name = [] then .error .notFound
  else
    m.search words (name.take (FileTree.maxName + 1)) false .notFound (m.searchPath.splitOn 0x3A)

/-- **The machine after a command was run as a program**, or why it could not be started. -/
def launch (m : Machine) (command : String) (args : List String) : Except FileError Machine := do
  let name := Bytes.ofString command
  let args := args.map Bytes.ofString
  if (name :: args).any (·.contains 0) then .error .nulInCommand
  else
    let s ← m.find name args
    return { m with files := s.program.run m.place (s.leading ++ args) m.files }

end Machine

end LineShell
