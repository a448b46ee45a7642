import LineShell.Completion.Registry
import LineShell.Config.Basic
import LineShell.Style.Spec

/-!
# The completion engine

A line is parsed, the node at the cursor is looked up, and the completers are tried on it.

* `Settings` — what the settings of the shell mean for completion; `Settings.ofConfig` derives
  them.
* **`standardCompleters`** — the completers of the shell, the most specific first.
* **`complete`** — one request.
-/

namespace LineShell

/-- What completion needs to know of the settings. -/
structure Settings where
  channelCapacity : Nat
  variableStyle : Option Style
  commandStyle : Option Style
  styler : Option LsColors
  deriving DecidableEq, Repr

namespace Settings

/-- The settings of completion under a configuration and the table of styles for file names from
the environment.  Without colours nothing is styled. -/
def ofConfig (c : Config) (lsColors : Option String) : Settings :=
  let color := c.display.colorOutput
  { channelCapacity := c.completion.channelCapacity.toNat
    variableStyle := if color then Style.ofSpec c.completion.variableStyle else none
    commandStyle := if color then Style.ofSpec c.completion.commandStyle else none
    styler :=
      if color && c.completion.useLsColors then
        some (match lsColors with
          | some spec => LsColors.parse spec
          | none => LsColors.standard)
      else none }

end Settings

def standardCompleters (s : Settings) (list : Lister) : List (Completer Node) :=
  let commands := generateCommands s.commandStyle
  let files := generateFiles list s.channelCapacity s.styler
  [⟨"variable", Context.reference, generateVariables s.variableStyle⟩,
    ⟨"command name", Context.newCommand, commands⟩,
    ⟨"command name", Context.commandHead, commands⟩,
    ⟨"argument", Context.newArgument, files⟩,
    ⟨"argument", Context.argument, files⟩]

/-- The node that a cursor on a line belongs to; a cursor past the end counts as at the end. -/
def cursorNode (line : String) (pos : Nat) : Node :=
  (parse line.toList).leafAt (min pos (byteSize line.toList))

/-- **One completion request** to a row of completers. -/
def complete (completers : List (Completer Node)) (line : String) (pos : Nat)
    (snapshot : Snapshot) : Except Fault Outcome :=
  (dispatch completers (cursorNode line pos) snapshot).map (·.outcome)

end LineShell
