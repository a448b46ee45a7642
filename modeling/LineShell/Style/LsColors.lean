import LineShell.Files.Entry
import LineShell.Style.Sgr

/-!
# Styles of file names

File names are shown the way directory listings show them: by the kind of the entry, and plain
files by the end of their name.  The table is written as `di=01;34:*.md=35`.

* `LsColors` — the table; `LsColors.standard` is the one to start from.
* **`LsColors.parse`** — reads a table on top of the standard one.  Items without `=` are skipped.
* **`LsColors.styleFor`** — the style of an entry.
-/

namespace LineShell

/-- Styles by kind of entry and by the end of a name, the later ends last. -/
structure LsColors where
  directory : Option Style
  symlink : Option Style
  executable : Option Style
  file : Option Style
  suffixes : List (List Char × Style)
  deriving DecidableEq, Repr

namespace LsColors

/-- Directories, links and executables stand out in bold blue, cyan and green. -/
def standard : LsColors where
  directory := some { bold := true, foreground := some (.named .blue) }
  symlink := some { bold := true, foreground := some (.named .cyan) }
  executable := some { bold := true, foreground := some (.named .green) }
  file := none
  suffixes := []

/-- Sets the style of the kind with a two-letter code; other codes say nothing about entries. -/
def setKind (colors : LsColors) (code : String) (style : Option Style) : LsColors :=
  match code with
  | "di" => { colors with directory := style }
  | "ln" => { colors with symlink := style }
  | "ex" => { colors with executable := style }
  | "fi" => { colors with file := style }
  | _ => colors

/-- The part before the first `=` and the part after it. -/
def splitItem (item : List Char) : Option (List Char × List Char) :=
  match item.dropWhile (· ≠ '=') with
  | [] => none
  | _ :: codes => some (item.takeWhile (· ≠ '='), codes)

/-- Adds one item to the table.  Codes that amount to no style clear the style of a kind, and for
the end of a name they say nothing. -/
def addItem (colors : LsColors) (item : List Char) : LsColors :=
  match splitItem item with
  | none => colors
  | some (key, codes) =>
    let style := Style.ofSgr (String.ofList codes)
    match key with
    | '*' :: suffix => match style with
      | some s => { colors with suffixes := colors.suffixes ++ [(suffix, s)] }
      | none => colors
    | _ => colors.setKind (String.ofList key) style

/-- Reads a table on top of the standard one. -/
def parse (spec : String) : LsColors :=
  (spec.toList.splitOn ':').foldl addItem standard

/-- The style of an entry.  For a plain file the last end that fits its name decides. -/
def styleFor (colors : LsColors) (entry : Entry) : Option Style :=
  match entry.kind with
  | .directory => colors.directory
  | .symlink => colors.symlink
  | .executable => colors.executable
  | .file =>
    match colors.suffixes.reverse.find? fun s => s.1.isSuffixOf entry.name.toList with
    | some s => some s.2
    | none => colors.file

end LsColors

end LineShell
