import LineShell.Config.Basic
import LineShell.Toml.Reader
import LineShell.Toml.Writer

/-!
# Configuration in TOML

Each section of the settings is a table.  A table may name any of the settings; the others keep
their standard values, and keys without a meaning are passed over.

* `Config.fields?` — a section as a table, or as an array with the settings in order.
* `Config.ofTable` — the settings that a table holds.
* **`Config.ofToml`**, **`Config.toToml`** — reading and writing a whole configuration.
-/

namespace LineShell

open Toml (Value Entries Plain)

/-! ## Reading -/

namespace Config

/-- A setting that may be missing; one of the wrong kind is refused. -/
def setting {α : Type} (decode : Value → Option α) (standard : α) : Option Value → Option α
  | none => some standard
  | some v => decode v

def decodeFlag : Value → Option Bool
  | .boolean b => some b
  | _ => none

def decodeString : Value → Option String
  | .string s => some s
  | _ => none

/-- A size is a whole number that fits into 64 bits without a sign. -/
def decodeSize : Value → Option UInt64
  | .integer (.ofNat n) => if n < UInt64.size then some (UInt64.ofNat n) else none
  | _ => none

/-- A level is its name, or a table with its name as the only key and nothing under it. -/
def decodeLevel : Value → Option LogLevel
  | .string s => LogLevel.table.lookup s
  | .table _ [(s, .table _ [])] => LogLevel.table.lookup s
  | .table _ [(s, .array _ [])] => LogLevel.table.lookup s
  | _ => none

/-- The values under a row of keys.  An array holds them in this order, and a date holds none.  All
numbers have to be readable, but for the items of an array that have no key. -/
def fields? (keys : List String) : Option Value → Option (List (Option Value))
  | none => some (keys.map fun _ => none)
  | some (.table _ es) =>
    if Toml.entriesReadable es then some (keys.map (Toml.lookup? · es)) else none
  | some (.array _ vs) =>
    if Toml.itemsReadable (vs.take keys.length) then
      some (keys.zipIdx.map fun k => vs[k.2]?)
    else none
  | some .date => some (keys.map fun _ => none)
  | some _ => none

/-- The settings of completion, from the values under their keys. -/
def completionOf (standard : CompletionConfig) :
    List (Option Value) → Option CompletionConfig
  | [capacity, variableStyle, commandStyle, useLsColors] => do
    return {
      channelCapacity := ← setting decodeSize standard.channelCapacity capacity
      variableStyle := ← setting decodeString standard.variableStyle variableStyle
      commandStyle := ← setting decodeString standard.commandStyle commandStyle
      useLsColors := ← setting decodeFlag standard.useLsColors useLsColors }
  | _ => none

def displayOf (standard : DisplayConfig) : List (Option Value) → Option DisplayConfig
  | [colorOutput] => do
    return { colorOutput := ← setting decodeFlag standard.colorOutput colorOutput }
  | _ => none

def historyOf (standard : HistoryConfig) : List (Option Value) → Option HistoryConfig
  | [maxSize, filePath, persist] => do
    return {
      maxSize := ← setting decodeSize standard.maxSize maxSize
      filePath := ← setting (fun v => (decodeString v).map Bytes.ofString) standard.filePath
        filePath
      persist := ← setting decodeFlag standard.persist persist }
  | _ => none

def loggingOf (standard : LoggingConfig) : List (Option Value) → Option LoggingConfig
  | [level, timestamps] => do
    return {
      level := ← setting decodeLevel standard.level level
      timestamps := ← setting decodeFlag standard.timestamps timestamps }
  | _ => none

def completionKeys : List String :=
  ["channel_capacity", "variable_style", "command_style", "use_ls_colors"]

def displayKeys : List String :=
  ["color_output"]

def historyKeys : List String :=
  ["max_size", "file_path", "persist"]

def loggingKeys : List String :=
  ["level", "timestamps"]

def sectionKeys : List String :=
  ["completion", "display", "history", "logging"]

/-- The settings that a table holds, the others being as in `standard`. -/
def ofTable (standard : Config) (es : Entries) : Option Config := do
  let others := es.filter fun e => !sectionKeys.contains e.1
  guard (Toml.entriesReadable others)
  let completion ← fields? completionKeys (Toml.lookup? "completion" es)
  let display ← fields? displayKeys (Toml.lookup? "display" es)
  let history ← fields? historyKeys (Toml.lookup? "history" es)
  let logging ← fields? loggingKeys (Toml.lookup? "logging" es)
  return {
    completion := ← completionOf standard.completion completion
    display := ← displayOf standard.display display
    history := ← historyOf standard.history history
    logging := ← loggingOf standard.logging logging }

/-- **The settings that a text holds**, the others being as in `standard`. -/
def ofToml (standard : Config) (text : String) : Except ConfigError Config :=
  match Toml.read text.toList with
  | none => .error (.invalidFormat "the text is not TOML")
  | some es =>
    match ofTable standard es with
    | none => .error (.invalidFormat "a setting has a value of the wrong kind")
    | some c => .ok c

/-! ## Writing -/

/-- All settings by section, given the text of the path of the history. -/
def sections (c : Config) (filePath : String) : List (String × List (String × Plain)) :=
  [("completion",
      [("channel_capacity", .size c.completion.channelCapacity.toNat),
        ("variable_style", .string c.completion.variableStyle),
        ("command_style", .string c.completion.commandStyle),
        ("use_ls_colors", .flag c.completion.useLsColors)]),
    ("display", [("color_output", .flag c.display.colorOutput)]),
    ("history",
      [("max_size", .size c.history.maxSize.toNat),
        ("file_path", .string filePath),
        ("persist", .flag c.history.persist)]),
    ("logging",
      [("level", .string c.logging.level.name),
        ("timestamps", .flag c.logging.timestamps)])]

/-- **The settings as a text.**  There is none where the path of the history is no text. -/
def toToml (c : Config) : Except ConfigError String :=
  match c.history.filePath.text? with
  | some path => .ok (String.ofList (Toml.writeSections (c.sections path)))
  | none => .error (.invalidFormat "path contains invalid UTF-8 characters")

end Config

end LineShell
