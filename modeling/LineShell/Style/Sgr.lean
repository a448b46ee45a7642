import LineShell.Style.Basic
import LineShell.Text.Words

/-!
# Styles as terminal codes

A terminal is told a style by a list of numbers such as `01;34`.  The numbers are read in groups: a
number by itself, or `38` and `48` with the numbers that spell a colour.

* `Sgr.Group` — what one group says; `Sgr.Group.apply` is its effect on the style before it.
* `Sgr.groups` — the groups of a list of numbers.  A colour that is not spelt out takes its numbers
  with it and says nothing.
* **`Style.ofSgr`** — the style that a list of codes amounts to, if it is any.
-/

namespace LineShell

namespace Sgr

inductive Ground where
  | foreground
  | background
  deriving DecidableEq, Repr

def Ground.paint (g : Ground) (c : Color) (s : Style) : Style :=
  match g with
  | foreground => { s with foreground := some c }
  | background => { s with background := some c }

/-- The place that a spelt-out colour is announced for. -/
def Ground.ofCode (n : UInt8) : Option Ground :=
  if n = 38 then some foreground else if n = 48 then some background else none

/-- A group of numbers: one code, or a colour spelt out. -/
inductive Group where
  | code (n : UInt8)
  | color (g : Ground) (c : Color)
  deriving DecidableEq, Repr

/-- The attribute that a code switches on. -/
def attribute? (n : UInt8) : Option Attribute :=
  match n.toNat with
  | 1 => some .bold
  | 2 => some .dimmed
  | 3 => some .italic
  | 4 => some .underline
  | 5 => some .blink
  | 7 => some .reverse
  | 8 => some .hidden
  | 9 => some .strikethrough
  | _ => none

/-- The palette colour that a code stands for, and its place: eight colours and their bright
forms, each for both grounds. -/
def paletteColor? (n : UInt8) : Option (Ground × Color) :=
  if 30 ≤ n ∧ n ≤ 37 then some (.foreground, .fixed (n - 30))
  else if 40 ≤ n ∧ n ≤ 47 then some (.background, .fixed (n - 40))
  else if 90 ≤ n ∧ n ≤ 97 then some (.foreground, .fixed (n - 90 + 8))
  else if 100 ≤ n ∧ n ≤ 107 then some (.background, .fixed (n - 100 + 8))
  else none

/-- The effect of one group.  Code `0` forgets everything before it, and unknown codes do
nothing. -/
def Group.apply : Group → Style → Style
  | code n, s =>
    if n = 0 then .plain
    else match attribute? n with
      | some a => s.withAttribute a
      | none => match paletteColor? n with
        | some (g, c) => g.paint c s
        | none => s
  | color g c, s => g.paint c s

/-- Reads the numbers after `38` or `48`: a palette colour, or a mixture.  The numbers that were
looked at are used up also where they spell no colour. -/
def readColor : List (Option UInt8) → Option Color × List (Option UInt8)
  | some 5 :: some n :: ps => (some (.fixed n), ps)
  | some 5 :: none :: ps => (none, ps)
  | some 2 :: some r :: some g :: some b :: ps => (some (.rgb r g b), ps)
  | some 2 :: some _ :: some _ :: none :: ps => (none, ps)
  | some 2 :: some _ :: none :: ps => (none, ps)
  | some 2 :: none :: ps => (none, ps)
  | some 2 :: _ => (none, [])
  | _ :: ps => (none, ps)
  | [] => (none, [])

theorem readColor_length_le (ps : List (Option UInt8)) :
    (readColor ps).2.length ≤ ps.length := by
  fun_cases readColor ps <;> simp <;> omega

/-- The groups of a list of numbers; what is no number of eight bits says nothing. -/
def groups : List (Option UInt8) → List Group
  | [] => []
  | none :: ps => groups ps
  | some n :: ps =>
    match Ground.ofCode n with
    | none => .code n :: groups ps
    | some g => ((readColor ps).1.map (Group.color g)).toList ++ groups (readColor ps).2
termination_by ps => ps.length
decreasing_by
  all_goals simp
  have := readColor_length_le ps
  omega

/-- The effect of a row of groups, the first group first. -/
def applyAll (gs : List Group) (s : Style) : Style :=
  gs.foldl (fun s g => g.apply s) s

/-- The numbers of a list of codes. -/
def params (codes : String) : List (Option UInt8) :=
  (codes.toList.splitOn ';').map Text.parseByte

end Sgr

/-- **The style that a list of codes amounts to**, unless it amounts to none. -/
def Style.ofSgr (codes : String) : Option Style :=
  (Sgr.applyAll (Sgr.groups (Sgr.params codes)) plain).ifStyled

end LineShell
