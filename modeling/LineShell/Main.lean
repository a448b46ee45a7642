import LineShell.CommandLine.Reach

/-!
# The program

Reads the arguments, the environment and the part of the file system that the run looks at, and
prints what the run prints.  Access rights cannot be read here: every file counts as a program.
-/

namespace LineShell

/-- The variables that matter to a run. -/
def readEnvironment : IO Environment := do
  let names := ["HOME", "PATH", "LS_COLORS"]
  let values ← names.mapM fun name => return (name, ← IO.getEnv name)
  return values.filterMap fun v => v.2.map fun text => (Bytes.ofString v.1, Bytes.ofString text)

/-- The place that a path without links leads to. -/
def Machine.placeOf (m : Machine) (path : Bytes) : Place :=
  let go (place : Place) (name : Bytes) : Place :=
    if name = [] ∨ name = Path.dot then place
    else if name = Path.dotDot then place.dropLast
    else place ++ [name]
  (Path.steps path).foldl go (if Path.isAbsolute path then [] else m.place)

/-- The machine with a node at a path and directories above it. -/
def Machine.withNode (m : Machine) (path : Bytes) (node : FileNode) : Machine :=
  let place := m.placeOf path
  let above := (List.range place.length).map fun n =>
    (place.take n, FileNode.directory .newDirectory)
  { m with files := (above ++ [(place, node)]).foldl (fun t n => t.put n.1 n.2) m.files }

/-- The machine with what stands at a path: the content of a file, or the entries of
a directory. -/
def Machine.readPath (m : Machine) (path : Bytes) : IO Machine := do
  let target := (← IO.currentDir) / path.lossy
  if ← target.isDir then
    let mut m := m.withNode path (.directory .newDirectory)
    for entry in ← target.readDir do
      let node : FileNode :=
        if ← entry.path.isDir then .directory .newDirectory else .file [] ⟨0o755⟩ none
      m := m.withNode (Path.join path (Bytes.ofString entry.fileName)) node
    return m
  else if ← target.pathExists then
    return m.withNode path (.file (← IO.FS.readBinFile target).data.toList .newFile none)
  else return m

end LineShell

open LineShell in
def main (args : List String) : IO UInt32 := do
  let place := Path.steps (Bytes.ofString (← IO.currentDir).toString)
  let bare : Machine := ⟨⟨[(place, .directory .newDirectory)]⟩, place, ← readEnvironment, none⟩
  let argv := programName :: args
  let machine ← match Arguments.read argv with
    | .error _ => pure bare
    | .ok a =>
      let (file, directories) := bare.reach a
      (file :: directories).foldlM (·.readPath ·) bare
  let run := machine.run argv
  IO.print run.output.stdoutText
  IO.eprint run.output.stderrText
  return run.exitCode.toUInt32
