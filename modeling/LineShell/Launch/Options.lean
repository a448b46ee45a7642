import LineShell.Text.Bytes

/-!
# The options of a program

The arguments of a program are options and operands, in any order.  An option is a letter after one
dash, where several may stand together, or a name after two dashes, which may be cut short as long
as it is the beginning of no other.

* `Taking`, `OptionForm` — what a program understands.
* `OptionForm.named?`, `OptionForm.lettered?` — the option that is meant.
* `readLetters` — the letters after one dash.
* **`readGiven`** — the options and the operands, or nothing where an option is not understood.
-/

namespace LineShell

inductive Taking where
  | nothing
  /-- A value, joined to the option or in the next argument. -/
  | value
  /-- A value only where it is joined to the option. -/
  | joined
  deriving DecidableEq, Repr

/-- An option of a program, and what it means. -/
structure OptionForm (α : Type) where
  meaning : α
  letter : Option Char
  name : Option String
  taking : Taking

/-- What the arguments of a program say. -/
structure Given (α : Type) where
  /-- The options with their values; an option without one has the empty value. -/
  options : List (α × Bytes)
  operands : List Bytes

variable {α : Type}

namespace OptionForm

/-- The option with a letter. -/
def lettered? (forms : List (OptionForm α)) (b : UInt8) : Option (OptionForm α) :=
  forms.find? fun f => f.letter = some (Char.ofNat b.toNat)

/-- The option with a name, or the only one whose name begins so. -/
def named? (forms : List (OptionForm α)) (name : Bytes) : Option (OptionForm α) :=
  match forms.find? (fun f => f.name.any (Bytes.ofString · = name)) with
  | some f => some f
  | none =>
    match forms.filter (fun f => f.name.any (name.isPrefixOf <| Bytes.ofString ·)) with
    | [f] => some f
    | _ => none

end OptionForm

/-- The options of a run of letters after one dash, and the option that takes its value from the
next argument, if the last one does. -/
def readLetters (forms : List (OptionForm α)) : Bytes → Option (List (α × Bytes) × Option α)
  | [] => some ([], none)
  | b :: bs =>
    (OptionForm.lettered? forms b).bind fun f =>
      match f.taking, bs with
      | .nothing, _ | .joined, [] =>
        (readLetters forms bs).map fun r => ((f.meaning, []) :: r.1, r.2)
      | .value, [] => some ([], some f.meaning)
      | _, v :: vs => some ([(f.meaning, v :: vs)], none)

/-- The option of a name after two dashes, perhaps with a value behind an equals sign; the option
that takes its value from the next argument, if it is such a one. -/
def readName (forms : List (OptionForm α)) (word : Bytes) :
    Option (List (α × Bytes) × Option α) :=
  (OptionForm.named? forms (word.takeWhile (· ≠ 0x3D))).bind fun f =>
    match f.taking, word.dropWhile (· ≠ 0x3D) with
    | .nothing, [] | .joined, [] => some ([(f.meaning, [])], none)
    | .nothing, _ :: _ => none
    | .value, [] => some ([], some f.meaning)
    | _, _ :: v => some ([(f.meaning, v)], none)

/-- The option or options of an argument; none if it is an operand, as a single dash is. -/
def readWord (forms : List (OptionForm α)) (word : Bytes) :
    Option (Option (List (α × Bytes) × Option α)) :=
  match word with
  | 0x2D :: 0x2D :: name => (readName forms name).map some
  | 0x2D :: b :: bs => (readLetters forms (b :: bs)).map some
  | _ => some none

/-- **The options and the operands** among the arguments of a program, in their order.  Two dashes
alone end the options. -/
def readGiven (forms : List (OptionForm α)) : List Bytes → Option (Given α)
  | [] => some ⟨[], []⟩
  | word :: words =>
    if word = [0x2D, 0x2D] then some ⟨[], words⟩
    else
      (readWord forms word).bind fun
        | none => (readGiven forms words).map fun g => { g with operands := word :: g.operands }
        | some (given, none) =>
          (readGiven forms words).map fun g => { g with options := given ++ g.options }
        | some (given, some waiting) =>
          match words with
          | [] => none
          | value :: words => (readGiven forms words).map fun g =>
            { g with options := given ++ (waiting, value) :: g.options }

end LineShell
