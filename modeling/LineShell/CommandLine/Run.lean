import LineShell.CommandLine.Invocation
import LineShell.CommandLine.Report
import LineShell.CommandLine.Script
import LineShell.Config.Display
import LineShell.Interactive

/-!
# Running the program

What the program prints for its arguments, and the status that it ends with.

* `Output` — the lines on the two output streams; a script for another shell is kept as what it is.
* `Invocation.handle` — carries out a subcommand, if there is one.
* **`Machine.run`** — a whole run without a terminal.
-/

namespace LineShell

def version : String := "0.1.0"

/-- The version of the tools that the program asks for. -/
def toolVersion : String := "1.91"

/-! ## Output -/

/-- A part of what is printed. -/
inductive Printed where
  | line (text : String)
  | script (shell : ScriptShell)
  deriving DecidableEq, Repr

/-- What is printed on the two output streams. -/
structure Output where
  stdout : List Printed
  stderr : List String
  deriving DecidableEq, Repr

namespace Output

def nothing : Output :=
  ⟨[], []⟩

def lines (ls : List String) : Output :=
  ⟨ls.map .line, []⟩

/-- Lines on the second stream. -/
def errors (ls : List String) : Output :=
  ⟨[], ls⟩

def append (a b : Output) : Output :=
  ⟨a.stdout ++ b.stdout, a.stderr ++ b.stderr⟩

instance : Append Output := ⟨append⟩

/-- Lines as a text. -/
def textOf (ls : List String) : String :=
  String.join (ls.map (· ++ "\n"))

def stdoutText (o : Output) : String :=
  textOf (o.stdout.map fun
    | .line text => text
    | .script shell => shell.script)

def stderrText (o : Output) : String :=
  textOf o.stderr

end Output

/-! ## Subcommands -/

/-- A verdict on the file of settings. -/
inductive Verdict where
  | missing
  | valid
  | invalid (e : ConfigError)
  | unreadable (e : ShellError)
  deriving DecidableEq, Repr

def Verdict.message : Verdict → String
  | missing => "Configuration file does not exist"
  | valid => "Configuration is valid"
  | invalid e => s!"Configuration validation failed: {(ShellError.config e).message}"
  | unreadable e => s!"Failed to load configuration: {e.message}"

/-- The verdict on the file of settings at a path. -/
def Machine.judge (m : Machine) (path : Bytes) : Verdict :=
  if m.pathExists path then
    match m.loadConfig (some path) with
    | .error e => .unreadable e
    | .ok c =>
      match c.validate with
      | .ok _ => .valid
      | .error e => .invalid e
  else .missing

namespace Invocation

def configPath (i : Invocation) (m : Machine) : Bytes :=
  m.configPath i.arguments.configPath?

def validate (i : Invocation) (m : Machine) : Output :=
  let path := i.configPath m
  .lines [s!"Validating configuration file: {path.lossy}", (m.judge path).message]

/-- Shows the settings in force. -/
def display (i : Invocation) (m : Machine) : Output :=
  let head := Output.lines [s!"Configuration file: {(i.configPath m).lossy}", ""]
  match i.config.toToml with
  | .ok text => head ++ .lines [text]
  | .error e =>
    head ++ .errors [s!"Error formatting configuration: {(ShellError.config e).message}"]
      ++ .lines [i.config.inFull]

def printReport (json : Bool) (r : Report) : Output :=
  if json then .lines [r.toJson.pretty]
  else ⟨r.candidates.map fun c => .line c.2, r.tips⟩

/-- Prints the script for a shell. -/
def printScript (shell : String) : Output × Except ShellError Unit :=
  match ScriptShell.ofName? shell with
  | some s => (⟨[.script s], []⟩, .ok ())
  | none => (.nothing, .error (.config (.generic
      (s!"Unsupported shell: {shell}. "
        ++ "Supported shells: bash, zsh, fish, powershell, elvish"))))

def perform (i : Invocation) (m : Machine) :
    Subcommand → Except Fault (Output × Except ShellError Unit)
  | .version =>
    .ok (.lines [s!"{programName} version {version}", s!"Rust version: {toolVersion}"], .ok ())
  | .completion shell => .ok (printScript shell)
  | .config display validate =>
    let checked := if validate then i.validate m else .nothing
    let shown := if display then i.display m else .nothing
    .ok (checked ++ shown, .ok ())
  | .complete line pos json =>
    (m.report i.config line pos).map fun r => (printReport json r, .ok ())

/-- Carries out the subcommand, if there is one, and says whether there was. -/
def handle (i : Invocation) (m : Machine) : Except Fault (Output × Except ShellError Bool) :=
  match i.arguments.command with
  | none => .ok (.nothing, .ok false)
  | some c => (i.perform m c).map fun r => (r.1, r.2.map fun _ => true)

/-- What is printed before a session, unless the shell is to be quiet. -/
def banner (i : Invocation) : Output :=
  if i.arguments.quiet then .nothing
  else .lines [s!"{programName} {version}", "Tab completes; Ctrl-D exits."]

end Invocation

/-! ## Whole runs -/

structure Run where
  exitCode : Nat
  output : Output
  deriving DecidableEq, Repr

/-- The status after a fault. -/
def faultCode : Nat := 101

namespace Run

def success (o : Output) : Run :=
  ⟨0, o⟩

def failure (o : Output) (e : ShellError) : Run :=
  ⟨1, o ++ .errors [s!"Error: {e.message}"]⟩

/-- A run that is cut off. -/
def fault (o : Output) : Run :=
  ⟨faultCode, o⟩

end Run

/-- How the arguments may be given. -/
def usageLine : String :=
  let names := "|".intercalate shellSpec.subcommands
  s!"Usage: {programName} [OPTIONS] [{names}]"

/-- What is printed where the arguments do not make the program run. -/
def Usage.output : Usage → Output
  | help => .lines [usageLine]
  | version => .lines [s!"{programName} {LineShell.version}"]
  | _ => .errors [usageLine]

/-- A session without a terminal: it begins, and then there is no line to read. -/
def Machine.runDetached (m : Machine) (before : Output) (c : Config) : Run :=
  match m.startSession with
  | .error _ => .fault before
  | .ok session =>
    let ((tips, result), _) := (Interactive.start session c.display.colorOutput).readDetached
    let before := before ++ .errors tips
    match result with
    | .ok _ => .success before
    | .error e => .failure before (.io e)

/-- **A whole run without a terminal**, for the arguments with the name of the program first. -/
def Machine.run (m : Machine) (argv : List String) : Run :=
  match Arguments.read argv with
  | .error u => ⟨u.exitCode, u.output⟩
  | .ok a =>
    match m.invoke a with
    | .error e => .failure .nothing e
    | .ok i =>
      let warned := Output.errors i.warnings
      match i.handle m with
      | .error _ => .fault warned
      | .ok (o, .error e) => .failure (warned ++ o) e
      | .ok (o, .ok true) => .success (warned ++ o)
      | .ok (o, .ok false) => m.runDetached (warned ++ o ++ i.banner) i.config

end LineShell
