import LineShell.Syntax.Lexeme

/-!
# The syntax tree of a line

A line is a *chunk*: statements, called *forms*, and the separators between them.  A form is a row
of words with blanks between them, and a word is a *compound* of adjacent segments.  The tree keeps
every character of the line, so that `Chunk.text` gives the line back.

* `Compound`, `FormPart`, `Form`, `ChunkPart`, `Chunk` — the levels of the tree.
* `Chunk.ofLexemes` — groups a row of lexemes: a terminator ends the form before it, blanks belong
  to the form they follow and otherwise to the chunk, and adjacent segments make one word.
* **`parse`** — the tree of a line.
* **`parse_text`** — reading loses nothing.
-/

namespace LineShell

/-- A word: segments with nothing between them. -/
structure Compound where
  primaries : List Primary
  deriving DecidableEq, Repr

/-- A part of a form: a word, or the blanks after one. -/
inductive FormPart where
  | word (w : Compound)
  | space (text : List Char)
  deriving DecidableEq, Repr

/-- One statement: a command and its arguments. -/
structure Form where
  parts : List FormPart
  deriving DecidableEq, Repr

/-- A part of a chunk: a statement, or a separator beside one. -/
inductive ChunkPart where
  | form (f : Form)
  | separator (text : List Char)
  deriving DecidableEq, Repr

structure Chunk where
  parts : List ChunkPart
  deriving DecidableEq, Repr

/-! ## The text of each level -/

def Compound.text (w : Compound) : List Char :=
  w.primaries.flatMap Primary.text

def FormPart.text : FormPart → List Char
  | word w => w.text
  | space t => t

def Form.text (f : Form) : List Char :=
  f.parts.flatMap FormPart.text

def ChunkPart.text : ChunkPart → List Char
  | form f => f.text
  | separator t => t

def Chunk.text (c : Chunk) : List Char :=
  c.parts.flatMap ChunkPart.text

/-! ## What the evaluator reads -/

def Form.words (f : Form) : List Compound :=
  f.parts.filterMap fun
    | .word w => some w
    | .space _ => none

def Chunk.forms (c : Chunk) : List Form :=
  c.parts.filterMap fun
    | .form f => some f
    | .separator _ => none

/-! ## Grouping lexemes -/

/-- Puts a segment before the parts of a form: it joins the word that follows directly, and is a
word of its own otherwise. -/
def FormPart.consPrimary (p : Primary) : List FormPart → List FormPart
  | .word w :: ps => .word ⟨p :: w.primaries⟩ :: ps
  | ps => .word ⟨[p]⟩ :: ps

/-- What the rest of a line holds, seen from inside a statement: the parts that still belong to
the statement, and the parts of the chunk after it. -/
structure Remainder where
  form : List FormPart
  chunk : List ChunkPart
  deriving DecidableEq, Repr

/-- Changes the parts that belong to the statement. -/
def Remainder.mapForm (g : List FormPart → List FormPart) (r : Remainder) : Remainder :=
  ⟨g r.form, r.chunk⟩

/-- Sees the rest of a line from between two statements: blanks at its front separate, and what is
left of the statement, if anything, is a form. -/
def Remainder.toParts : Remainder → List ChunkPart
  | ⟨[], after⟩ => after
  | ⟨[.space t], after⟩ => .separator t :: after
  | ⟨.space t :: p :: ps, after⟩ => .separator t :: .form ⟨p :: ps⟩ :: after
  | ⟨.word w :: ps, after⟩ => .form ⟨.word w :: ps⟩ :: after

/-- Groups the lexemes of the rest of a line. -/
def Remainder.ofLexemes : List Lexeme → Remainder
  | [] => ⟨[], []⟩
  | .terminator c :: ls => ⟨[], .separator [c] :: (ofLexemes ls).toParts⟩
  | .space t :: ls => (ofLexemes ls).mapForm (.space t :: ·)
  | .primary p :: ls => (ofLexemes ls).mapForm (FormPart.consPrimary p)

/-- The tree over a row of lexemes. -/
def Chunk.ofLexemes (ls : List Lexeme) : Chunk :=
  ⟨(Remainder.ofLexemes ls).toParts⟩

/-- **The syntax tree of a line.** -/
def parse (line : List Char) : Chunk :=
  Chunk.ofLexemes (lex line)

/-! ## Nothing is lost -/

@[simp] theorem FormPart.flatMap_text_consPrimary (p : Primary) (ps : List FormPart) :
    (FormPart.consPrimary p ps).flatMap FormPart.text = p.text ++ ps.flatMap FormPart.text := by
  unfold FormPart.consPrimary
  split <;> simp [FormPart.text, Compound.text]

@[simp] theorem Remainder.flatMap_text_toParts (r : Remainder) :
    r.toParts.flatMap ChunkPart.text
      = r.form.flatMap FormPart.text ++ r.chunk.flatMap ChunkPart.text := by
  unfold Remainder.toParts
  split <;> simp [ChunkPart.text, Form.text, FormPart.text]

theorem Remainder.flatMap_text_ofLexemes (ls : List Lexeme) :
    (ofLexemes ls).form.flatMap FormPart.text ++ (ofLexemes ls).chunk.flatMap ChunkPart.text
      = ls.flatMap Lexeme.text := by
  fun_induction ofLexemes ls with
  | case1 => rfl
  | case2 c ls ih => simp [ChunkPart.text, Lexeme.text, ih]
  | case3 t ls ih => simp [mapForm, FormPart.text, Lexeme.text, ← ih]
  | case4 p ls ih => simp [mapForm, Lexeme.text, ← ih]

theorem Chunk.ofLexemes_text (ls : List Lexeme) :
    (Chunk.ofLexemes ls).text = ls.flatMap Lexeme.text := by
  simp [Chunk.ofLexemes, Chunk.text, Remainder.flatMap_text_ofLexemes]

/-- The tree of a line holds the line, character by character. -/
theorem parse_text (line : List Char) : (parse line).text = line := by
  rw [parse, Chunk.ofLexemes_text, lex_flatMap_text]

end LineShell
