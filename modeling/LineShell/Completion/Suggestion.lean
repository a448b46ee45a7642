import LineShell.Completion.Engine

/-!
# Suggestions

A line editor replaces a span of the line by the text that the user picks.  Candidates only ever
add text, so the span is empty and lies where the text is to be inserted.

* `Suggestion` — a candidate together with its place on the line.
* **`Outcome.suggestions`** — what an editor offers after a completion request.
-/

namespace LineShell

/-- A text that may be put in place of a span of the line. -/
structure Suggestion where
  value : String
  /-- The text that stands for the suggestion in a menu. -/
  description : String
  style : Option Style
  start : Nat
  stop : Nat
  appendBlank : Bool := false
  deriving DecidableEq, Repr

/-- A candidate as a suggestion at a position. -/
def Candidate.toSuggestion (position : Nat) (c : Candidate) : Suggestion :=
  { value := c.insert
    description := c.display
    style := c.style
    start := position
    stop := position }

/-- Where the candidates of an outcome go, for a cursor on a line. -/
def Outcome.insertAt (o : Outcome) (cursor : Nat) : Nat :=
  (o.context.map (·.insertAt cursor)).getD cursor

/-- What an editor offers, for a cursor on a line. -/
def Outcome.suggestions (o : Outcome) (cursor : Nat) : List Suggestion :=
  o.candidates.map (Candidate.toSuggestion (o.insertAt cursor))

end LineShell
