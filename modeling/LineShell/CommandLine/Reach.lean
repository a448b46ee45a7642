import LineShell.CommandLine.Run

/-!
# What a run looks at

A run needs little of the file system: the file of settings, the directories of programs, and the
directory whose entries may complete a line.  They are known from the arguments alone, so that they
can be read before the run begins.

* `Subcommand.directories` — the directories that may be listed for a subcommand.
* **`Machine.reach`** — all paths that a run looks at.
-/

namespace LineShell

/-- The directory that may be listed to complete a line, where the place calls for a file name. -/
def completedDirectory? (line : String) (pos : Nat) : Option String :=
  let node := cursorNode line pos
  ((Context.newArgument node).or (Context.argument node)).map fun ctx => (splitPath ctx.head).1

/-- The directories that may be listed for a subcommand. -/
def Subcommand.directories : Subcommand → List String
  | complete line pos _ =>
    (completedDirectory? line (pos.getD (byteSize line.toList))).toList
  | _ => []

/-- The paths that a run looks at: first the file of settings, then directories. -/
def Machine.reach (m : Machine) (a : Arguments) : Bytes × List Bytes :=
  let listed := (a.command.map Subcommand.directories).getD []
  (m.configPath a.configPath?,
    Machine.searchDirectories m.searchPath ++ listed.map Bytes.ofString)

end LineShell
