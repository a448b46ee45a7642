import LineShell.Error
import LineShell.Scope
import LineShell.Syntax.Tree

/-!
# Commands

A form becomes a command in two steps: its words are expanded under a scope, and its first word
says what is asked for.

* `Compound.expand`, `Form.expand` — the words of a form with references replaced by values.
* `reservedNames` — the names of the special forms, known and unknown.
* `Command` — what a row of words asks for; **`Command.ofWords`** reads it off.
-/

namespace LineShell

/-! ## Expansion -/

/-- What a segment stands for: a reference for the value of its variable, any other segment for
itself. -/
def Primary.expand (scope : Scope) (p : Primary) : Except EvalError String :=
  let own := String.ofList p.value
  match p.kind with
  | .reference =>
    match scope.get? own with
    | some v => .ok v
    | none => .error (.undefinedVariable own)
  | _ => .ok own

/-- What a word stands for.  The values are put together as they are and never read again as
part of a line. -/
def Compound.expand (scope : Scope) (w : Compound) : Except EvalError String :=
  (w.primaries.mapM (Primary.expand scope)).map String.join

/-- The words of a form; the first reference without a value is an error. -/
def Form.expand (scope : Scope) (f : Form) : Except EvalError (List String) :=
  f.words.mapM (Compound.expand scope)

/-! ## Commands -/

/-- The names of the special forms.  Only some of them do anything. -/
def reservedNames : List String :=
  ["and", "or", "if", "while", "for", "try", "fn", "set", "del", "use"]

/-- What a row of words asks for. -/
inductive Command where
  | nothing
  /-- Leave the shell. -/
  | exit
  | set (name value : String)
  | define (name body : String)
  | delete (name : String)
  | misuse (form usage : String)
  /-- A special form that does nothing yet. -/
  | unsupported (form : String)
  /-- A function or a program. -/
  | invoke (name : String) (args : List String)
  deriving DecidableEq, Repr

namespace Command

/-- Reads a name and at least one further word, which are put together with single blanks. -/
def named (form usage : String) (make : String → String → Command) : List String → Command
  | name :: v :: vs => make name (" ".intercalate (v :: vs))
  | _ => misuse form usage

/-- What a row of words asks for. -/
def ofWords : List String → Command
  | [] => nothing
  | "exit" :: _ => exit
  | "set" :: args => named "set" "usage: set NAME VALUE..." set args
  | "fn" :: args => named "fn" "usage: fn NAME BODY..." define args
  | ["del", name] => delete name
  | "del" :: _ => misuse "del" "usage: del NAME"
  | head :: args => if head ∈ reservedNames then unsupported head else invoke head args

end Command

end LineShell
