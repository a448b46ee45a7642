import LineShell.Machine

/-!
# The prompt

Before each line the shell shows where it stands.  A directory at or below the home directory is
shown from there.

* `Prompt` — what is shown; `Prompt.ofDirectory` finds the location.
* `Prompt.left`, `Prompt.search` — the texts around a line that is edited.
* **`Machine.prompt`** — the prompt at the current directory.
-/

namespace LineShell

structure Prompt where
  /-- The directory as it is shown. -/
  location : String
  deriving DecidableEq, Repr

namespace Prompt

/-- A directory as it is shown: the home directory is a tilde, and what lies below is a path from
there. -/
def shown (directory : Bytes) (home : Option Bytes) : String :=
  match home.bind (Path.stripBase? directory) with
  | some [] => "~"
  | some rest => "~/" ++ rest.lossy
  | none => directory.lossy

def ofDirectory (directory : Bytes) (home : Option Bytes) : Prompt :=
  ⟨shown directory home⟩

def left (p : Prompt) : String :=
  p.location ++ "> "

def right (_ : Prompt) : String := ""

/-- What stands between the prompt and the line. -/
def indicator (_ : Prompt) : String := ""

/-- What stands before further lines of one input. -/
def continuation (_ : Prompt) : String := "... "

/-- What stands before the line while the history is searched for a term. -/
def search (_ : Prompt) (failing : Bool) (term : String) : String :=
  let state := if failing then "failing " else ""
  s!"({state}reverse-search: {term}) "

end Prompt

/-- **The prompt of the shell where it stands.**  A directory that has been removed has no path. -/
def Machine.prompt (m : Machine) : Prompt :=
  .ofDirectory (m.currentDirectory.getD []) m.home

end LineShell
