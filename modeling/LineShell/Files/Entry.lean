/-!
# Directory entries

What completion sees of a file: its name and what kind of thing it is.
-/

namespace LineShell

/-- The kinds of directory entry that are told apart. -/
inductive EntryKind where
  | directory
  | symlink
  | executable
  | file
  deriving DecidableEq, Repr

/-- A directory entry: its name as shown, and its kind. -/
structure Entry where
  name : String
  kind : EntryKind
  deriving DecidableEq, Repr

end LineShell
