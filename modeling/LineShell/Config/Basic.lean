import LineShell.Error
import LineShell.Files.Path

/-!
# Configuration

The settings of the shell, in four sections.

* `Config` — the settings; `Config.standard` are those in force where nothing else is said.
* **`Config.validate`** — the settings that are refused.
-/

namespace LineShell

/-- How much the shell reports of its own doings. -/
inductive LogLevel where
  | error
  | warn
  | info
  | debug
  | trace
  deriving DecidableEq, Repr

/-- The levels with their names, from the quietest to the loudest. -/
def LogLevel.table : List (String × LogLevel) :=
  [("error", .error), ("warn", .warn), ("info", .info), ("debug", .debug), ("trace", .trace)]

def LogLevel.name : LogLevel → String
  | error => "error"
  | warn => "warn"
  | info => "info"
  | debug => "debug"
  | trace => "trace"

/-- How completion works and what it looks like. -/
structure CompletionConfig where
  /-- The capacity of the channel that directory entries come through. -/
  channelCapacity : UInt64 := 32
  /-- The style of variables, in words. -/
  variableStyle : String := "magenta"
  /-- The style of programs, in words. -/
  commandStyle : String := "green"
  useLsColors : Bool := true
  deriving DecidableEq, Repr

structure DisplayConfig where
  colorOutput : Bool := true
  deriving DecidableEq, Repr

/-- Which of the entered lines are remembered, and where. -/
structure HistoryConfig where
  maxSize : UInt64 := 1000
  filePath : Bytes
  persist : Bool := true
  deriving DecidableEq, Repr

structure LoggingConfig where
  level : LogLevel := .warn
  timestamps : Bool := true
  deriving DecidableEq, Repr

structure Config where
  completion : CompletionConfig := {}
  display : DisplayConfig := {}
  history : HistoryConfig
  logging : LoggingConfig := {}
  deriving DecidableEq, Repr

namespace Config

/-- The directory for the shell's own files: the home directory, or else the current one. -/
def baseDirectory (home : Option Bytes) : Bytes :=
  home.getD Path.dot

/-- Where the history is kept unless the settings say otherwise. -/
def historyPath (home : Option Bytes) : Bytes :=
  Path.join (baseDirectory home) (Bytes.ofString ".shline_history")

def defaultPath (home : Option Bytes) : Bytes :=
  Path.join (Path.join (baseDirectory home) (Bytes.ofString ".shline"))
    (Bytes.ofString "config.toml")

/-- The settings where nothing else is said. -/
def standard (home : Option Bytes) : Config :=
  { history := { filePath := historyPath home } }

/-- Checks the settings and names the first that is refused: neither the channel nor the history
may be empty. -/
def validate (c : Config) : Except ConfigError Unit :=
  if c.completion.channelCapacity = 0 then .error (.invalidValue "completion.channel_capacity" "0")
  else if c.history.maxSize = 0 then .error (.invalidValue "history.max_size" "0")
  else .ok ()

end Config

end LineShell
