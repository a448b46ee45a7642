import LineShell.Config.Basic
import LineShell.Text.Quoted

/-!
# Configuration in full

Settings that cannot be written in TOML can still be shown: every field by its name, one to a line,
and texts in quotes.
-/

namespace LineShell

/-- The name of a level as it is shown. -/
def LogLevel.title : LogLevel → String
  | error => "Error"
  | warn => "Warn"
  | info => "Info"
  | debug => "Debug"
  | trace => "Trace"

def recordLines (head : String) (fields : List String) : List String :=
  [head ++ " \x7b"] ++ fields.map ("    " ++ ·) ++ ["\x7d"]

/-- The lines of a field that is a record, with a comma after the last. -/
def recordField (name head : String) (fields : List String) : List String :=
  let lines := recordLines (name ++ ": " ++ head) (fields.map (· ++ ","))
  lines.dropLast ++ (lines.getLast?.map (· ++ ",")).toList

/-- The settings in full. -/
def Config.inFull (c : Config) : String :=
  "\n".intercalate <| recordLines "Config" <|
    recordField "completion" "CompletionConfig"
      [s!"channel_capacity: {c.completion.channelCapacity.toNat}",
        "variable_style: " ++ Text.quoted c.completion.variableStyle,
        "command_style: " ++ Text.quoted c.completion.commandStyle,
        s!"use_ls_colors: {c.completion.useLsColors}"]
    ++ recordField "display" "DisplayConfig" [s!"color_output: {c.display.colorOutput}"]
    ++ recordField "history" "HistoryConfig"
      [s!"max_size: {c.history.maxSize.toNat}",
        "file_path: " ++ Text.quotedBytes c.history.filePath,
        s!"persist: {c.history.persist}"]
    ++ recordField "logging" "LoggingConfig"
      ["level: " ++ c.logging.level.title, s!"timestamps: {c.logging.timestamps}"]

end LineShell
