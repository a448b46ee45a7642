import LineShell.CommandLine.Options
import LineShell.Text.Words

/-!
# The arguments of the shell

* `Subcommand` — what the shell can be asked to do instead of starting a session.
* `Arguments` — everything that its arguments say.
* **`Arguments.read`** — reads them.
-/

namespace LineShell

/-- What the shell can be asked to do once. -/
inductive Subcommand where
  | version
  /-- Print a script that completes the arguments of the shell itself in another shell. -/
  | completion (shell : String)
  /-- Show or check the settings. -/
  | config (display validate : Bool)
  /-- Complete a line, at its end unless a position is given. -/
  | complete (line : String) (pos : Option Nat) (json : Bool)
  deriving DecidableEq, Repr

structure Arguments where
  configFile : Option String := none
  noColor : Bool := false
  quiet : Bool := false
  verbose : Bool := false
  veryVerbose : Bool := false
  command : Option Subcommand := none
  deriving DecidableEq, Repr

/-! ## What is understood -/

def refuseEmpty (value : String) : Option Usage :=
  if value = "" then some .missingValue else none

/-- A position of at most 64 bits. -/
def parsePosition (value : String) : Option Nat :=
  (Text.parseNat value.toList).filter (· < UInt64.size)

def refuseNoPosition (value : String) : Option Usage :=
  if (parsePosition value).isNone then some .invalidValue else none

def helpOption : OptionSpec := ⟨"help", some 'h', .help⟩

def shellSpec : CommandSpec where
  options := [⟨"config", some 'c', .value refuseEmpty⟩, ⟨"no-color", none, .flag⟩,
    ⟨"quiet", some 'q', .flag⟩, ⟨"verbose", some 'v', .flag⟩, ⟨"vv", none, .flag⟩, helpOption,
    ⟨"version", some 'V', .version⟩]
  operands := []
  subcommands := ["version", "completion", "config", "complete", "help"]

def versionSpec : CommandSpec :=
  ⟨[helpOption], [], []⟩

def completionSpec : CommandSpec :=
  ⟨[helpOption], ["SHELL"], []⟩

def configSpec : CommandSpec :=
  ⟨[⟨"show", none, .flag⟩, ⟨"validate", none, .flag⟩, helpOption], [], []⟩

def completeSpec : CommandSpec :=
  ⟨[⟨"pos", none, .value refuseNoPosition⟩, ⟨"json", none, .flag⟩, helpOption], ["LINE"], []⟩

/-! ## Reading -/

/-- What is asked for behind the subcommand `help`: help, unless for something that is not
there. -/
def helpFor : List String → Usage
  | [] => .help
  | [name] => if name ∈ shellSpec.subcommands then .help else .unknownSubcommand
  | _ => .unknownSubcommand

/-- A subcommand and its arguments. -/
def Subcommand.read (name : String) (ws : List String) : Except Usage Subcommand :=
  let has (given : List (String × String)) (key : String) := (given.lookup key).isSome
  match name with
  | "version" => (versionSpec.readAll ws).map fun _ => version
  | "completion" =>
    (completionSpec.readAll ws).map fun given => completion ((given.lookup "SHELL").getD "")
  | "config" =>
    (configSpec.readAll ws).map fun given => config (has given "show") (has given "validate")
  | "complete" =>
    (completeSpec.readAll ws).map fun given =>
      complete ((given.lookup "LINE").getD "") ((given.lookup "pos").bind parsePosition)
        (has given "json")
  | _ => .error (helpFor ws)

/-- **Reads the arguments**, the first of which is the name that the shell was started by.  A
subcommand is read before the options in front of it are settled. -/
def Arguments.read (argv : List String) : Except Usage Arguments := do
  let stop ← shellSpec.read (argv.drop 1)
  let command ← match stop.subcommand with
    | none => .ok none
    | some (name, ws) => (Subcommand.read name ws).map some
  let given ← stop.reading.finish
  let has (key : String) := (given.lookup key).isSome
  return {
    configFile := given.lookup "config"
    noColor := has "no-color"
    quiet := has "quiet"
    verbose := has "verbose"
    veryVerbose := has "vv"
    command }

end LineShell
