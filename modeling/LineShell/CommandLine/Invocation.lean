import LineShell.CommandLine.Arguments
import LineShell.Config.Load

/-!
# The effective configuration

What is in force comes from three places: the arguments, the file of settings, and the standard
settings, the earlier ones counting more.

* `Arguments.override` — the settings that the arguments decide.
* `Invocation` — the arguments together with the settings in force.
* **`Machine.invoke`** — loads, checks and overrides the settings.
-/

namespace LineShell

namespace Arguments

/-- The path of the file of settings, where one is named. -/
def configPath? (a : Arguments) : Option Bytes :=
  a.configFile.map Bytes.ofString

/-- How much is reported: the loudest of the wishes counts. -/
def level (a : Arguments) (standard : LogLevel) : LogLevel :=
  if a.veryVerbose then .trace
  else if a.verbose then .debug
  else if a.quiet then .error
  else standard

/-- The settings with those that the arguments decide. -/
def override (a : Arguments) (c : Config) : Config :=
  { c with
    display := { c.display with colorOutput := c.display.colorOutput && !a.noColor }
    logging := { c.logging with level := a.level c.logging.level } }

end Arguments

/-- The arguments of a run with the settings in force. -/
structure Invocation where
  arguments : Arguments
  config : Config
  /-- Lines that warn of settings that are not followed. -/
  warnings : List String
  deriving DecidableEq, Repr

/-- The warnings for settings that are refused. -/
def validationWarnings (e : ConfigError) : List String :=
  [s!"Warning: Configuration validation failed: {(ShellError.config e).message}",
    "Using default configuration instead."]

/-- **Finds the settings in force.**  A file that is named has to be there.  Settings that are
refused are replaced by the standard ones, all of them and with a warning. -/
def Machine.invoke (m : Machine) (a : Arguments) : Except ShellError Invocation := do
  if let some path := a.configPath? then
    unless m.pathExists path do
      .error (.config (.fileNotFound path.lossy))
  let loaded ← m.loadConfig a.configPath?
  match loaded.validate with
  | .ok _ => return ⟨a, a.override loaded, []⟩
  | .error e => return ⟨a, a.override m.standardConfig, validationWarnings e⟩

end LineShell
