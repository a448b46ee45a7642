import LineShell.Syntax.Primary

/-!
# Lexemes

A line is read as a row of lexemes, each as long as it can be: a statement terminator, a run of
blanks, or a word segment.  Every character belongs to one, so no line is refused.

* **`lex`** — the lexemes of a line.
* `lex_flatMap_text` — put side by side they are the line again.
-/

namespace LineShell

/-- One piece of a line: a terminator, a run of blanks, or a segment of a word. -/
inductive Lexeme where
  | terminator (c : Char)
  | space (text : List Char)
  | primary (p : Primary)
  deriving DecidableEq, Repr

namespace Lexeme

/-- A lexeme as it stands on the line. -/
def text : Lexeme → List Char
  | terminator c => [c]
  | space t => t
  | primary p => p.text

/-- The lexeme that begins with `c`, and the rest of the line after it. -/
def scan (c : Char) (cs : List Char) : Lexeme × List Char :=
  if isTerminator c then (terminator c, cs)
  else if isSpace c then (space (c :: cs.takeWhile isSpace), cs.dropWhile isSpace)
  else (primary (Primary.scan c cs).1, (Primary.scan c cs).2)

/-- Nothing of the line is lost. -/
theorem scan_text_append (c : Char) (cs : List Char) :
    (scan c cs).1.text ++ (scan c cs).2 = c :: cs := by
  unfold scan
  split
  · rfl
  · split
    · simp [text]
    · exact Primary.scan_text_append c cs

/-- The scanner goes forward. -/
theorem scan_rest_length_le (c : Char) (cs : List Char) : (scan c cs).2.length ≤ cs.length := by
  unfold scan
  split
  · exact Nat.le_refl _
  · split
    · exact (List.dropWhile_suffix _).length_le
    · exact Primary.scan_rest_length_le c cs

end Lexeme

def lex : List Char → List Lexeme
  | [] => []
  | c :: cs => (Lexeme.scan c cs).1 :: lex (Lexeme.scan c cs).2
termination_by cs => cs.length
decreasing_by
  exact Nat.lt_succ_of_le (Lexeme.scan_rest_length_le c cs)

@[simp] theorem lex_nil : lex [] = [] := by
  rw [lex]

theorem lex_cons (c : Char) (cs : List Char) :
    lex (c :: cs) = (Lexeme.scan c cs).1 :: lex (Lexeme.scan c cs).2 := by
  rw [lex]

/-- The lexemes of a line, put side by side, are the line. -/
theorem lex_flatMap_text (cs : List Char) : (lex cs).flatMap Lexeme.text = cs := by
  fun_induction lex cs with
  | case1 => rfl
  | case2 c cs ih => simpa [ih] using Lexeme.scan_text_append c cs

end LineShell
