import LineShell.Text.Bytes

/-!
# Paths

A path is a byte string with slashes in it.

* `Path.names` — the names between the slashes; `Path.steps` — the names to walk through.
* `Path.join` — a path seen from a directory.
* `Path.Spelled` — a path cut at its slashes; `Path.Spelled.components` forgets what does not
  matter in it: repeated slashes and dots inside.
* **`Path.stripBase?`** — the part of a path below a directory, compared by components and kept in
  its own spelling.
-/

namespace LineShell.Path

/-- The byte between the names of a path. -/
def slash : UInt8 := 0x2F

/-- The name of a directory inside itself. -/
def dot : Bytes := [0x2E]

def dotDot : Bytes := [0x2E, 0x2E]

def isAbsolute (p : Bytes) : Bool :=
  p.head? = some slash

def names (p : Bytes) : List Bytes :=
  (p.splitOn slash).filter (· ≠ [])

/-- The names of a path in the order in which they are walked.  A slash at the end asks for a
directory, which an empty name stands for. -/
def steps (p : Bytes) : List Bytes :=
  names p ++ if p.getLast? = some slash then [[]] else []

/-- A path as seen from a directory: itself if it starts at the root. -/
def join (dir p : Bytes) : Bytes :=
  if isAbsolute p then p
  else if dir = [] ∨ dir.getLast? = some slash then dir ++ p
  else dir ++ slash :: p

/-! ## Components -/

/-- Where a path starts, if it says so. -/
inductive Start where
  | root
  | here
  deriving DecidableEq, Repr

/-- What a path is made of, spelling apart. -/
inductive Component where
  | start (s : Start)
  | up
  | named (name : Bytes)
  deriving DecidableEq, Repr

/-- A path cut at its slashes. -/
structure Spelled where
  start : Option Start
  segments : List Bytes
  deriving DecidableEq, Repr

namespace Spelled

def ofBytes (p : Bytes) : Spelled :=
  match p with
  | [] => ⟨none, []⟩
  | b :: rest =>
    if b = slash then ⟨some .root, rest.splitOn slash⟩
    else match p.splitOn slash with
      | [] => ⟨none, []⟩
      | s :: segs => if s = dot then ⟨some .here, segs⟩ else ⟨none, s :: segs⟩

/-- Whether a segment names nothing: it is empty or a dot. -/
def isSilent (segment : Bytes) : Bool :=
  segment == [] || segment == dot

/-- The component that a segment stands for. -/
def component? (segment : Bytes) : Option Component :=
  if isSilent segment then none
  else if segment = dotDot then some .up
  else some (.named segment)

def components (p : Spelled) : List Component :=
  (p.start.map Component.start).toList ++ p.segments.filterMap component?

/-- Goes past a number of components that are no starts. -/
def dropSegments : Nat → List Bytes → List Bytes
  | 0, segs => segs
  | _, [] => []
  | n + 1, s :: segs => if isSilent s then dropSegments (n + 1) segs else dropSegments n segs

/-- The segments without the silent ones at the end. -/
def trimEnd (segs : List Bytes) : List Bytes :=
  (segs.reverse.dropWhile isSilent).reverse

/-- The segments without the silent ones at either end. -/
def trim (segs : List Bytes) : List Bytes :=
  trimEnd (segs.dropWhile isSilent)

/-- Segments as they are written. -/
def spell (segs : List Bytes) : Bytes :=
  [slash].intercalate segs

/-- A path as it is written, less the silent segments at its end. -/
def spellTrimmed (p : Spelled) : Bytes :=
  match p.start with
  | none => spell (trimEnd p.segments)
  | some .root => slash :: spell (trimEnd p.segments)
  | some .here => spell (dot :: trimEnd p.segments)

/-- What is left of a path after its first `n` components. -/
def dropComponents (n : Nat) (p : Spelled) : Bytes :=
  match n, p.start with
  | 0, _ => p.spellTrimmed
  | n + 1, some _ => spell (trim (dropSegments n p.segments))
  | n + 1, none => spell (trim (dropSegments (n + 1) p.segments))

end Spelled

/-- The part of a path below `base`, if the path lies there. -/
def stripBase? (p base : Bytes) : Option Bytes :=
  let path := Spelled.ofBytes p
  let comps := (Spelled.ofBytes base).components
  if comps.isPrefixOf path.components then some (path.dropComponents comps.length) else none

end LineShell.Path
