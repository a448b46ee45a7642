import LineShell.Completion.Candidate
import LineShell.Completion.Snapshot
import LineShell.Files.Stream
import LineShell.Files.Tree
import LineShell.Style.LsColors

/-!
# Generators

A generator turns the head of a token into candidates.  What goes wrong in a way that the user can
mend becomes a tip, and the generator goes on without.

* `Generator` — from a head, a snapshot and the tips so far to candidates and the tips after.
* `generateVariables` — the names of variables.
* `CommandSource`, `generateCommands` — the names of commands: reserved names, functions and
  programs.
* **`generateFiles`** — the entries of the directory that the head leads into, received through
  a bounded channel.
-/

namespace LineShell

/-- What a generator makes: candidates, and the tips with its own behind those before. -/
abbrev Generated := List Candidate × List String

/-- A generator: it is given the head, the snapshot and the tips so far. -/
abbrev Generator := String → Snapshot → List String → Except Fault Generated

/-! ## Variables -/

def variableCandidates (style : Option Style) (head : String) (snapshot : Snapshot) :
    List Candidate :=
  snapshot.globals.toList.filterMap fun name =>
    Candidate.matching name head ("$" ++ ·) style

def generateVariables (style : Option Style) : Generator :=
  fun head snapshot tips => .ok (variableCandidates style head snapshot, tips)

/-! ## Commands -/

/-- Where the name of a command comes from. -/
inductive CommandSource where
  | special
  | function
  | external
  deriving DecidableEq, Repr

namespace CommandSource

/-- The sources in the order in which they are asked. -/
def all : List CommandSource := [special, function, external]

/-- The names that a source offers; those of functions without their marker. -/
def names (source : CommandSource) (snapshot : Snapshot) : List String :=
  match source with
  | special => snapshot.specials.toList
  | function => snapshot.globals.toList.filterMap (restAfter functionMarker)
  | external => snapshot.externals.toList

/-- The style of the names of a source: only programs are styled. -/
def style (source : CommandSource) (externalStyle : Option Style) : Option Style :=
  match source with
  | external => externalStyle
  | special | function => none

end CommandSource

/-- The candidates for names of commands.  A name that two sources offer comes twice. -/
def commandCandidates (style : Option Style) (head : String) (snapshot : Snapshot) :
    List Candidate :=
  CommandSource.all.flatMap fun source =>
    (source.names snapshot).filterMap fun name =>
      Candidate.matching name head id (source.style style)

def generateCommands (style : Option Style) : Generator :=
  fun head snapshot tips => .ok (commandCandidates style head snapshot, tips)

/-! ## Files -/

/-- Splits a path typed in part into the directory, with its slash, and what is typed of the name
in it.  Without a slash the directory is the current one. -/
def splitPath (head : String) : String × String :=
  let cs := head.toList
  let file := (cs.reverse.takeWhile (· ≠ '/')).reverse
  let dir := cs.take (cs.length - file.length)
  if dir = [] then (".", head) else (String.ofList dir, String.ofList file)

/-- Lists a directory, given by its path. -/
abbrev Lister := String → Except FileError (List Entry)

/-- The tip about a directory that cannot be listed. -/
def listingTip (dir : String) (e : FileError) : String :=
  s!"cannot list directory {dir}: {e.message}"

def fileCandidates (styler : Option LsColors) (file : String) (entries : List Entry) :
    List Candidate :=
  entries.filterMap fun e =>
    Candidate.matching e.name file id (styler.bind (·.styleFor e))

/-- Completes the names of files.  Entries come through a channel of the given capacity. -/
def generateFiles (list : Lister) (capacity : Nat) (styler : Option LsColors) : Generator :=
  fun head _ tips =>
    let (dir, file) := splitPath head
    match list dir with
    | .error e => .ok ([], tips ++ [listingTip dir e])
    | .ok entries => do
      let channel ← Channel.create capacity entries
      return (fileCandidates styler file channel.drain, tips)

end LineShell
