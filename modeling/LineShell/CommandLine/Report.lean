import LineShell.Config.Basic
import LineShell.Session
import LineShell.Text.Json

/-!
# Completing once

A line can be completed without a session.  Nothing has been defined then, and the commands are the
programs on the search path.

* `Report` — what is reported of an outcome; `Report.toJson` is its form for other programs.
* **`Machine.report`** — completes a line once.
-/

namespace LineShell

structure Report where
  completer : Option String
  head : String
  /-- The texts to insert, each with the text that is shown for it. -/
  candidates : List (String × String)
  tips : List String
  deriving DecidableEq, Repr

namespace Report

def ofOutcome (o : Outcome) : Report :=
  ⟨o.completer, o.head, o.candidates.map fun c => (c.insert, c.display), o.tips⟩

open Text (Json)

def toJson (r : Report) : Json :=
  .object [
    ("completer", match r.completer with
      | none => .null
      | some name => .string name),
    ("head", .string r.head),
    ("candidates", .array (r.candidates.map fun c =>
      .object [("insert", .string c.1), ("display", .string c.2)])),
    ("tips", .array (r.tips.map Json.string))]

end Report

/-- What completion needs to know of the settings on a machine. -/
def Machine.settings (m : Machine) (c : Config) : Settings :=
  Settings.ofConfig c m.lsColors?

/-- A session in which nothing has happened but that the programs have been looked up. -/
def Machine.newSession (m : Machine) : Session Machine :=
  (Session.start m).withExternals (m.commandNames m.searchPath)

/-- **Completes a line once**, at its end unless a position is given. -/
def Machine.report (m : Machine) (c : Config) (line : String) (pos : Option Nat) :
    Except Fault Report :=
  let pos := pos.getD (byteSize line.toList)
  (m.newSession.complete Machine.host (m.settings c) line pos).map fun r => .ofOutcome r.1

end LineShell
