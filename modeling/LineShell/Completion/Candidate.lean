import LineShell.Style.Basic

/-!
# Candidates

A candidate proposes a name for the token that is being typed.  It carries only the part of the
name that is missing after the head.

* `afterHead` — what follows a head in a name, if the name starts with it.
* **`Candidate.matching`** — the candidate for a name, if it starts with the head.
-/

namespace LineShell

/-- What follows `head` in `name`, if `name` starts with it. -/
def afterHead : (head name : List Char) → Option (List Char)
  | [], name => some name
  | _ :: _, [] => none
  | h :: head, n :: name => if h = n then afterHead head name else none

theorem afterHead_eq_some_iff {head name rest : List Char} :
    afterHead head name = some rest ↔ name = head ++ rest := by
  fun_induction afterHead head name with
  | case1 name => simp
  | case2 => simp
  | case3 h head name ih => simp [ih]
  | case4 h head n name hne => simp [Ne.symm hne]

/-- What follows `head` in a name, as text. -/
def restAfter (head name : String) : Option String :=
  (afterHead head.toList name.toList).map String.ofList

theorem restAfter_eq_some_iff {head name rest : String} :
    restAfter head name = some rest ↔ name = head ++ rest := by
  unfold restAfter
  constructor
  · intro h
    obtain ⟨cs, hcs, rfl⟩ := Option.map_eq_some_iff.1 h
    rw [← String.toList_inj, afterHead_eq_some_iff.1 hcs]
    simp
  · rintro rfl
    rw [String.toList_append, afterHead_eq_some_iff.2 rfl]
    simp

/-- A proposed completion: the part to insert, the text shown for it, and its style. -/
structure Candidate where
  insert : String
  display : String
  style : Option Style
  deriving DecidableEq, Repr

namespace Candidate

/-- The candidate for `name` if it starts with `head`, shown as `display` has it. -/
def matching (name head : String) (display : String → String) (style : Option Style) :
    Option Candidate :=
  (restAfter head name).map fun rest => ⟨rest, display name, style⟩

/-- The name that a candidate completes a head to. -/
def fullName (c : Candidate) (head : String) : String :=
  head ++ c.insert

end Candidate

end LineShell
