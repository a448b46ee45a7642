/-!
# Reading arguments

The arguments of a program are options, operands and perhaps the name of a subcommand, which takes
over from there.  They are read from left to right, and the first thing that is wrong decides.

* `Usage` — why the arguments do not make the program run.
* `OptionSpec`, `CommandSpec` — what a command understands.
* `Word` — the forms of an argument.
* `Reading` — what has been read; an option that takes its value from the next argument waits in
  it and is only checked when something else follows.
* **`CommandSpec.read`** — reads the arguments of a command, as far as the name of a subcommand.
-/

namespace LineShell

/-- Why arguments do not make a program run.  The wish for help or for the version is one of the
reasons. -/
inductive Usage where
  | help
  | version
  /-- An option that is not understood, or an operand too many. -/
  | unknownArgument
  | unknownSubcommand
  /-- An option that may be given once and is given again. -/
  | repeatedOption
  /-- A value for an option that takes none. -/
  | unexpectedValue
  /-- No value, or an empty one, for an option that needs one. -/
  | missingValue
  | invalidValue
  | missingOperand
  deriving DecidableEq, Repr

/-- The status that a program ends with. -/
def Usage.exitCode : Usage → Nat
  | help | version => 0
  | _ => 2

inductive OptionKind where
  | flag
  | help
  | version
  /-- Takes a value, which is refused for a reason or accepted. -/
  | value (refusal : String → Option Usage)

structure OptionSpec where
  /-- The name after two dashes. -/
  name : String
  /-- The letter after one dash. -/
  letter : Option Char
  kind : OptionKind

/-- What a command understands. -/
structure CommandSpec where
  options : List OptionSpec
  /-- The names of the operands, all of which are needed. -/
  operands : List String
  subcommands : List String

namespace CommandSpec

def findName (c : CommandSpec) (name : String) : Option OptionSpec :=
  c.options.find? (·.name = name)

def findLetter (c : CommandSpec) (letter : Char) : Option OptionSpec :=
  c.options.find? (·.letter = some letter)

end CommandSpec

/-! ## Words -/

inductive Word where
  /-- Two dashes: all that follows are operands. -/
  | endOfOptions
  /-- A name after two dashes, and perhaps a value behind an equals sign. -/
  | named (name : String) (value : Option String)
  /-- Letters after one dash; a value may follow the last of them directly. -/
  | letters (cs : List Char)
  | plain
  deriving DecidableEq, Repr

/-- A name with the value behind its first equals sign. -/
def Word.splitValue (cs : List Char) : Word :=
  let name := String.ofList (cs.takeWhile (· != '='))
  match cs.dropWhile (· != '=') with
  | [] => named name none
  | _ :: value => named name (some (String.ofList value))

/-- The form of an argument.  A dash alone is plain. -/
def Word.ofString (w : String) : Word :=
  match w.toList with
  | ['-', '-'] => endOfOptions
  | '-' :: '-' :: cs => splitValue cs
  | '-' :: c :: cs => letters (c :: cs)
  | _ => plain

/-! ## Reading -/

/-- What has been read of the arguments of a command. -/
structure Reading where
  /-- The options and operands with their values; a flag has the empty one. -/
  given : List (String × String)
  /-- The option read last, where it takes a value, and the value where it is there. -/
  pending : Option (OptionSpec × Option String)
  operands : List String

namespace Reading

/-- Whether the next argument is the value of an option. -/
def wantsValue (r : Reading) : Bool :=
  match r.pending with
  | some (_, none) => true
  | _ => false

def record (r : Reading) (o : OptionSpec) (value : String) : Except Usage Reading :=
  if (r.given.lookup o.name).isSome then .error .repeatedOption
  else
    let refusal := match o.kind with
      | .value refusal => refusal value
      | _ => none
    match refusal with
    | some u => .error u
    | none => .ok { r with given := r.given ++ [(o.name, value)], pending := none }

/-- Checks the option that waits. -/
def settle (r : Reading) : Except Usage Reading :=
  match r.pending with
  | none => .ok r
  | some (_, none) => .error .missingValue
  | some (o, some value) => r.record o value

/-- Reads an option with the value attached to it, if there is one. -/
def option (r : Reading) (o : OptionSpec) (attached : Option String) : Except Usage Reading :=
  match o.kind, attached with
  | .value _, some value => r.settle.bind fun r => r.record o value
  | .value _, none => r.settle.map fun r => { r with pending := some (o, none) }
  | _, some _ => .error .unexpectedValue
  | .flag, none => r.settle.bind fun r => r.record o ""
  | .help, none => r.settle.bind fun _ => .error .help
  | .version, none => r.settle.bind fun _ => .error .version

/-- The value that follows a letter directly, with or without an equals sign. -/
def attachedValue : List Char → Option String
  | [] => none
  | '=' :: cs => some (String.ofList cs)
  | cs => some (String.ofList cs)

def letters (spec : CommandSpec) (r : Reading) : List Char → Except Usage Reading
  | [] => .ok r
  | c :: cs =>
    match spec.findLetter c with
    | none => .error .unknownArgument
    | some o =>
      match o.kind with
      | .value _ => r.option o (attachedValue cs)
      | _ => (r.option o none).bind fun r => letters spec r cs

/-- Why an operand that is not expected is refused.  Where a subcommand could stand it is taken
for one, unless it is one that options may not precede in this way. -/
def stray (spec : CommandSpec) (literal : Bool) (w : String) : Usage :=
  if spec.subcommands = [] then .unknownArgument
  else if literal ∧ w ∈ spec.subcommands then .unknownArgument
  else .unknownSubcommand

def operand (spec : CommandSpec) (literal : Bool) (r : Reading) (w : String) :
    Except Usage Reading :=
  match r.operands with
  | [] => .error (stray spec literal w)
  | name :: names =>
    r.settle.map fun r => { r with given := r.given ++ [(name, w)], operands := names }

/-- Reads one argument before the end of the options. -/
def word (spec : CommandSpec) (r : Reading) (w : String) : Except Usage Reading :=
  match Word.ofString w with
  | .named name value =>
    match spec.findName name with
    | none => .error .unknownArgument
    | some o => r.option o value
  | .letters cs => r.letters spec cs
  | .endOfOptions | .plain =>
    match r.pending with
    | some (o, none) => .ok { r with pending := some (o, some w) }
    | _ => r.operand spec false w

/-- What has been given, where nothing is missing. -/
def finish (r : Reading) : Except Usage (List (String × String)) :=
  r.settle.bind fun r => if r.operands = [] then .ok r.given else .error .missingOperand

end Reading

namespace CommandSpec

/-- Where reading stops: at the end, or at the name of a subcommand with its own arguments. -/
structure Stop where
  reading : Reading
  subcommand : Option (String × List String)

/-- Reads arguments; `literal` says that the end of the options is behind them. -/
def readFrom (spec : CommandSpec) (r : Reading) : Bool → List String → Except Usage Stop
  | _, [] => .ok ⟨r, none⟩
  | true, w :: ws => (r.operand spec true w).bind fun r => readFrom spec r true ws
  | false, w :: ws =>
    if !r.wantsValue && spec.subcommands.contains w then .ok ⟨r, some (w, ws)⟩
    else if w = "--" then readFrom spec r true ws
    else (r.word spec w).bind fun r => readFrom spec r false ws

/-- **Reads the arguments of a command.** -/
def read (spec : CommandSpec) (ws : List String) : Except Usage Stop :=
  spec.readFrom ⟨[], none, spec.operands⟩ false ws

/-- Reads the arguments of a command without subcommands. -/
def readAll (spec : CommandSpec) (ws : List String) : Except Usage (List (String × String)) :=
  (spec.read ws).bind (·.reading.finish)

end CommandSpec

end LineShell
