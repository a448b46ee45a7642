import LineShell.CommandLine.Arguments

/-!
# Completion in other shells

Another shell can complete the arguments of this one once it has run a script.

* `ScriptShell` — the shells that there are scripts for; `ScriptShell.ofName?` knows them by name.
* **`ScriptShell.script`** — the script for a shell.
-/

namespace LineShell

def programName : String := "shline"

/-- A shell that there is a script for. -/
inductive ScriptShell where
  | bash
  | zsh
  | fish
  | powerShell
  | elvish
  deriving DecidableEq, Repr

namespace ScriptShell

/-- The shells by their names in lower case. -/
def table : List (String × ScriptShell) :=
  [("bash", bash), ("zsh", zsh), ("fish", fish), ("powershell", powerShell), ("pwsh", powerShell),
    ("elvish", elvish)]

/-- The shell of a name, in upper or lower case. -/
def ofName? (name : String) : Option ScriptShell :=
  table.lookup (String.ofList (name.toList.map Text.lowerToAscii))

/-- The words that may follow the name of the program. -/
def words : List String :=
  shellSpec.subcommands ++ shellSpec.options.map ("--" ++ ·.name)

def script (s : ScriptShell) : String :=
  let list := " ".intercalate words
  match s with
  | bash => s!"complete -W '{list}' {programName}"
  | zsh => s!"#compdef {programName}\ncompadd -- {list}"
  | fish => s!"complete -c {programName} -f -a '{list}'"
  | powerShell =>
    s!"Register-ArgumentCompleter -Native -CommandName {programName} -ScriptBlock "
      ++ "\x7b param($word) -split '" ++ list ++ "' -like \"$word*\" \x7d"
  | elvish =>
    s!"set edit:completion:arg-completer[{programName}] = " ++ "\x7b|@args| put " ++ list ++ " \x7d"

end ScriptShell

end LineShell
