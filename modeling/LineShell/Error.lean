import LineShell.Files.Error

/-!
# What can go wrong

Completion fails softly; everything else that can go wrong in the shell is one of the causes here.

* `ConfigError`, `EvalError` — the causes that lie in the settings and in an entered line.
* **`ShellError`** — all causes; `ShellError.message` words them, and `ShellError.source?` names
  the trouble with a file behind one.
-/

namespace LineShell

inductive ConfigError where
  | fileNotFound (path : String)
  /-- The text is not in the format of settings, or settings cannot be written in it. -/
  | invalidFormat (reason : String)
  | invalidValue (field value : String)
  | generic (text : String)
  deriving DecidableEq, Repr

inductive EvalError where
  | undefinedVariable (name : String)
  | badArguments (form usage : String)
  /-- A reserved form that is known by name only. -/
  | unsupported (form : String)
  /-- Functions call each other too deeply. -/
  | recursionLimit (depth : Nat)
  | spawnFailed (command : String) (cause : FileError)
  deriving DecidableEq, Repr

inductive ShellError where
  | config (e : ConfigError)
  | eval (e : EvalError)
  | io (e : FileError)
  | generic (text : String)
  deriving DecidableEq, Repr

def ConfigError.message : ConfigError → String
  | fileNotFound path => s!"Config file not found: {path}"
  | invalidFormat reason => s!"Invalid config format: {reason}"
  | invalidValue field value => s!"Invalid value '{value}' for field '{field}'"
  | generic text => text

def EvalError.message : EvalError → String
  | undefinedVariable name => s!"Variable ${name} not found"
  | badArguments form usage => s!"{form}: {usage}"
  | unsupported form => s!"Special form '{form}' is not supported"
  | recursionLimit depth => s!"Function calls nested deeper than {depth} levels"
  | spawnFailed command cause => s!"Cannot run '{command}': {cause.message}"

namespace ShellError

def message : ShellError → String
  | config e => s!"Configuration error: {e.message}"
  | eval e => e.message
  | io e => s!"I/O error: {e.message}"
  | generic text => text

/-- The trouble with a file or a program behind an error. -/
def source? : ShellError → Option FileError
  | io e => some e
  | eval (.spawnFailed _ cause) => some cause
  | _ => none

end ShellError

end LineShell
