import LineShell.Files.Entry
import LineShell.Files.Error
import LineShell.Files.Path
import LineShell.Files.Rights

/-!
# The file system

Files, directories and symbolic links under one root.  A node is known by the names that lead to
it from the root.

* `FileNode`, `FileTree` — what there is, and where; `FileTree.node?` looks a place up.
* **`FileTree.walk`** — follows a path name by name, through links; `FileTree.resolve` checks the
  path first.
* `FileTree.list`, `FileTree.readText` — reading a directory and a text file.
* `FileTree.createFile`, `FileTree.createDirectory`, `FileTree.createDirectories` — making new
  ones.

The shell owns all files, and no special power helps it: what their owner may not do is refused.
-/

namespace LineShell

/-- The programs whose effects on files are known. -/
inductive Program where
  /-- Ends at once and changes nothing. -/
  | idle
  | touch
  | mkdir
  deriving DecidableEq, Repr

/-- A place from the root: the names that lead to it. -/
abbrev Place := List Bytes

/-- What can be at a place.  A file may be one of the known programs. -/
inductive FileNode where
  | directory (rights : Rights)
  | file (content : Bytes) (rights : Rights) (program : Option Program)
  | link (target : Bytes)
  deriving DecidableEq, Repr

namespace FileNode

def isDirectory : FileNode → Bool
  | directory _ => true
  | _ => false

/-- Whether a node is a regular file that anyone may execute, though perhaps not its owner. -/
def isExecutable : FileNode → Bool
  | file _ rights _ => rights.anyoneMay .execute
  | _ => false

/-- The kind of entry that a node makes in its directory. -/
def entryKind (n : FileNode) : EntryKind :=
  match n with
  | directory _ => .directory
  | link _ => .symlink
  | file _ _ _ => if n.isExecutable then .executable else .file

end FileNode

/-- A file system: the nodes below the root with their places, in the order they were made. -/
structure FileTree where
  nodes : List (Place × FileNode)
  deriving DecidableEq, Repr

namespace FileTree

/-- The longest name that a directory takes, in bytes. -/
def maxName : Nat := 255

/-- The longest path that is accepted, in bytes. -/
def maxPath : Nat := 4095

def maxLinks : Nat := 40

def node? (t : FileTree) (place : Place) : Option FileNode :=
  if place = [] then some (.directory .newDirectory) else t.nodes.lookup place

/-- Puts a node at a place, instead of what may be there. -/
def put (t : FileTree) (place : Place) (n : FileNode) : FileTree :=
  ⟨t.nodes.filter (·.1 ≠ place) ++ [(place, n)]⟩

def remove (t : FileTree) (place : Place) : FileTree :=
  ⟨t.nodes.filter fun n => !place.isPrefixOf n.1⟩

def children (t : FileTree) (place : Place) : List (Bytes × FileNode) :=
  t.nodes.filterMap fun n => match n.1.getLast? with
    | some name => if n.1.dropLast = place then some (name, n.2) else none
    | none => none

/-! ## Walking -/

/-- Whether a walk that ends at a link goes on to its target. -/
inductive LastLink where
  | follow
  | keep
  deriving DecidableEq, Repr

/-- Follows names from a place.  At most `links` links are gone through; the last name is followed
or not as `last` says. -/
def walk (t : FileTree) (last : LastLink) (links : Nat) (here : Place) :
    List Bytes → Except FileError Place
  | [] => .ok here
  | name :: rest =>
    match t.node? here with
    | some (.directory rights) =>
      if name = [] then walk t last links here rest
      else if !rights.ownerMay .execute then .error .permissionDenied
      else if name = Path.dot then walk t last links here rest
      else if name = Path.dotDot then walk t last links here.dropLast rest
      else if maxName < name.length then .error .nameTooLong
      else match t.node? (here ++ [name]) with
        | none => .error .notFound
        | some (.link target) =>
          if rest = [] ∧ last = .keep then .ok (here ++ [name])
          else match links with
            | 0 => .error .tooManyLinks
            | links + 1 =>
              walk t last links (if Path.isAbsolute target then [] else here)
                (Path.steps target ++ rest)
        | some _ => walk t last links (here ++ [name]) rest
    | some _ => .error .notDirectory
    | none => .error .notFound
termination_by names => (links, names.length)

/-- Checks that a path can be a path at all. -/
def checkPath (path : Bytes) : Except FileError Unit :=
  if path.contains 0 then .error .nulInName
  else if path = [] then .error .notFound
  else if maxPath < path.length then .error .nameTooLong
  else .ok ()

/-- The place that a path leads to, seen from the place `cwd`. -/
def resolve (t : FileTree) (cwd : Place) (path : Bytes) (last : LastLink) :
    Except FileError Place := do
  checkPath path
  t.walk last maxLinks (if Path.isAbsolute path then [] else cwd) (Path.steps path)

/-- What a path leads to. -/
def stat (t : FileTree) (cwd : Place) (path : Bytes) : Except FileError FileNode := do
  let place ← t.resolve cwd path .follow
  match t.node? place with
  | some n => .ok n
  | none => .error .notFound

def pathExists (t : FileTree) (cwd : Place) (path : Bytes) : Bool :=
  (t.stat cwd path).isOk

/-! ## Reading -/

/-- The nodes in a directory, by name. -/
def list (t : FileTree) (cwd : Place) (path : Bytes) :
    Except FileError (List (Bytes × FileNode)) := do
  let place ← t.resolve cwd path .follow
  match t.node? place with
  | some (.directory rights) =>
    if rights.ownerMay .read then .ok (t.children place) else .error .permissionDenied
  | some _ => .error .notDirectory
  | none => .error .notFound

/-- The entries of a directory as they are shown. -/
def entries (t : FileTree) (cwd : Place) (path : Bytes) : Except FileError (List Entry) := do
  let nodes ← t.list cwd path
  return nodes.map fun n => ⟨n.1.lossy, n.2.entryKind⟩

def readText (t : FileTree) (cwd : Place) (path : Bytes) : Except FileError String := do
  match ← t.stat cwd path with
  | .directory _ => .error .isDirectory
  | .link _ => .error .notFound
  | .file content rights _ =>
    if !rights.ownerMay .read then .error .permissionDenied
    else match content.text? with
      | some text => .ok text
      | none => .error .notText

/-! ## Making -/

/-- The place at which a path would make something new: its last name inside the directory that
the names before it lead to.  A link without a target is gone through. -/
def newPlace (t : FileTree) (links : Nat) (here : Place) (names : List Bytes) :
    Except FileError Place :=
  match names.getLast? with
  | none => .error .alreadyExists
  | some name => do
    let dir ← t.walk .follow maxLinks here names.dropLast
    if name = [] ∨ name = Path.dot ∨ name = Path.dotDot then .error .alreadyExists
    else if maxName < name.length then .error .nameTooLong
    else match t.node? dir with
      | some (.directory rights) =>
        if !rights.ownerMay .execute then .error .permissionDenied
        else match t.node? (dir ++ [name]) with
        | some (.link target) =>
          match links with
          | 0 => .error .tooManyLinks
          | links + 1 =>
            newPlace t links (if Path.isAbsolute target then [] else dir) (Path.steps target)
        | some _ => .error .alreadyExists
        | none =>
          if rights.ownerMay .write then .ok (dir ++ [name]) else .error .permissionDenied
      | some _ => .error .notDirectory
      | none => .error .notFound

/-- Where a path is looked at from. -/
def origin (cwd : Place) (path : Bytes) : Place :=
  if Path.isAbsolute path then [] else cwd

/-- Makes a file, or writes a new one over the file that is there. -/
def writeFile (t : FileTree) (cwd : Place) (path : Bytes) (n : FileNode) :
    Except FileError FileTree := do
  checkPath path
  match t.walk .follow maxLinks (origin cwd path) (Path.steps path) with
  | .ok place => match t.node? place with
    | some (.directory _) => .error .isDirectory
    | some (.file _ rights _) =>
      if rights.ownerMay .write then .ok (t.put place n) else .error .permissionDenied
    | _ => .ok (t.put place n)
  | .error _ => .ok (t.put (← t.newPlace maxLinks (origin cwd path) (Path.steps path)) n)

/-- Makes an empty file where a path leads nowhere. -/
def createFile (t : FileTree) (cwd : Place) (path : Bytes) : Except FileError FileTree := do
  if t.pathExists cwd path then .ok t
  else t.writeFile cwd path (.file [] .newFile none)

/-- Makes a symbolic link, where nothing is yet. -/
def createLink (t : FileTree) (cwd : Place) (path target : Bytes) : Except FileError FileTree := do
  checkPath path
  match t.walk .keep maxLinks (origin cwd path) (Path.steps path) with
  | .ok _ => .error .alreadyExists
  | .error _ => .ok (t.put (← t.newPlace 0 (origin cwd path) (Path.steps path)) (.link target))

/-- Makes a directory, where nothing is yet.  A slash at the end of the path does no harm. -/
def createDirectory (t : FileTree) (cwd : Place) (path : Bytes) (rights : Rights) :
    Except FileError FileTree := do
  checkPath path
  let names := Path.names path
  match t.walk .keep maxLinks (origin cwd path) names with
  | .ok _ => .error .alreadyExists
  | .error _ => .ok (t.put (← t.newPlace 0 (origin cwd path) names) (.directory rights))

/-- Goes from a place through names one by one, and makes each directory that is missing, the last
one with the rights that are asked for.  What has been made stays where the way ends early. -/
def makeWay (t : FileTree) (here : Place) (rights : Rights) : List Bytes → FileTree
  | [] => t
  | name :: names =>
    let own := if names = [] then rights else .newDirectory
    let t := (t.createDirectory here name own).toOption.getD t
    match t.walk .follow maxLinks here [name] with
    | .ok next => if (t.node? next).any (·.isDirectory) then makeWay t next rights names else t
    | .error _ => t

/-- Makes a directory and those above it, as far as they are not there and can be made. -/
def createDirectories (t : FileTree) (cwd : Place) (path : Bytes) (rights : Rights) : FileTree :=
  t.makeWay (origin cwd path) rights (Path.names path)

end FileTree

end LineShell
