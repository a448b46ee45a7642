import LineShell.Proofs.Grouping

/-!
# Lines put together

A terminator ends whatever stands before it, unless that is a string whose closing quote is not
there.  So two lines with a terminator between them are parsed each on its own, and the tree is
that of the first line, the terminator, and the tree of the second.

* `QuotesClosed` — a line that does not end inside a quoted string.
* `Lexeme.Munched.append_terminator` — a lexeme that ends before the end of a line also ends where
  the line goes on with a terminator.
* `lex_join` — the lexemes of lines put together.
* **`parse_join`**, `forms_join` — their tree, and its forms.
-/

namespace LineShell

/-- A line that does not end inside a quoted string. -/
def QuotesClosed (line : List Char) : Prop :=
  ∀ p, (lex line).getLast? = some (.primary p) → p.isClosed = true

/-! ## Before a terminator -/

lemma isSpace_of_isTerminator {c : Char} (h : isTerminator c = true) : isSpace c = false := by
  rcases isTerminator_iff.1 h with rfl | rfl <;> decide

lemma isBareChar_of_isTerminator {c : Char} (h : isTerminator c = true) :
    isBareChar c = false := by
  rcases isTerminator_iff.1 h with rfl | rfl <;> decide

lemma isVariableChar_of_isTerminator {c : Char} (h : isTerminator c = true) :
    isVariableChar c = false := by
  rcases isTerminator_iff.1 h with rfl | rfl <;> decide

lemma Stops.append {p : Char → Bool} {rest : List Char} {c : Char} (h : Stops p rest)
    (hc : p c = false) (cs : List Char) : Stops p (rest ++ c :: cs) := by
  cases rest with
  | nil => exact stops_cons_iff.2 hc
  | cons d rest => exact stops_cons_iff.2 (stops_cons_iff.1 h)

lemma QuoteEnds.of_closed {q : Char} {e : Bool} {body rest : List Char} {closed : Bool}
    (h : QuoteEnds q e body closed rest) (hclosed : rest = [] → closed = true)
    (rest' : List Char) : QuoteEnds q e body closed rest' := by
  cases closed with
  | true => exact h
  | false => exact absurd (hclosed h.2) (by simp)

lemma Primary.Munched.append_terminator {p : Primary} {rest : List Char} {c : Char}
    (h : p.Munched rest) (hc : isTerminator c = true) (hp : rest = [] → p.isClosed = true)
    (cs : List Char) : p.Munched (rest ++ c :: cs) := by
  cases p with
  | bareword t => exact ⟨h.1, h.2.1, h.2.2.append (isBareChar_of_isTerminator hc) cs⟩
  | singleQuoted body closed => exact QuoteEnds.of_closed h hp _
  | doubleQuoted body closed => exact QuoteEnds.of_closed h hp _
  | reference name => exact ⟨h.1, h.2.append (isVariableChar_of_isTerminator hc) cs⟩

/-- A lexeme that ends before the end of a line also ends where the line goes on with a terminator,
if it is not an unclosed string. -/
lemma Lexeme.Munched.append_terminator {l : Lexeme} {rest : List Char} {c : Char}
    (h : l.Munched rest) (hc : isTerminator c = true)
    (hl : ∀ p, l = .primary p → rest = [] → p.isClosed = true) (cs : List Char) :
    l.Munched (rest ++ c :: cs) := by
  cases l with
  | terminator d => exact h
  | space t => exact ⟨h.1, h.2.1, h.2.2.append (isSpace_of_isTerminator hc) cs⟩
  | primary p => exact Primary.Munched.append_terminator h hc (hl p rfl) cs

lemma Lexeme.flatMap_text_ne_nil {ls : List Lexeme} (h : Row ls []) (hne : ls ≠ []) :
    ls.flatMap text ≠ [] := by
  match ls, hne with
  | l :: ls, _ =>
      rw [List.flatMap_cons]
      exact List.append_ne_nil_of_left_ne_nil h.1.text_ne_nil _

lemma Lexeme.Row.append_terminator {ls : List Lexeme} {c : Char} (h : Row ls [])
    (hc : isTerminator c = true)
    (hls : ∀ p, ls.getLast? = some (.primary p) → p.isClosed = true) (cs : List Char) :
    Row ls (c :: cs) := by
  induction ls with
  | nil => trivial
  | cons l ls ih =>
      obtain ⟨hl, hrow⟩ := h
      rw [List.append_nil] at hl
      refine ⟨hl.append_terminator hc ?_ cs, ih hrow ?_⟩
      · rintro p rfl hnil
        obtain rfl : ls = [] := by
          by_contra hne
          exact flatMap_text_ne_nil hrow hne hnil
        exact hls p rfl
      · intro p hp
        refine hls p ?_
        cases ls with
        | nil => exact absurd hp (by simp)
        | cons m ms => rwa [List.getLast?_cons_cons]

/-- The lexemes of a line, of a terminator and of a second line. -/
theorem lex_join {a : List Char} (ha : QuotesClosed a) {c : Char} (hc : isTerminator c = true)
    (b : List Char) : lex (a ++ c :: b) = lex a ++ .terminator c :: lex b := by
  refine lex_eq_iff.2 ⟨?_, ?_⟩
  · rw [List.flatMap_append, List.flatMap_cons, lex_flatMap_text, lex_flatMap_text]
    rfl
  · refine Lexeme.row_append_iff.2 ⟨?_, hc, row_lex b⟩
    rw [List.append_nil]
    exact (row_lex a).append_terminator hc ha _

/-! ## The tree -/

lemma Remainder.toParts_append (form : List FormPart) (chunk after : List ChunkPart) :
    toParts ⟨form, chunk ++ after⟩ = toParts ⟨form, chunk⟩ ++ after := by
  match form with
  | [] | [.space _] | .space _ :: _ :: _ | .word _ :: _ => rfl

lemma Remainder.ofLexemes_append_terminator (ls : List Lexeme) (c : Char) (ms : List Lexeme) :
    ofLexemes (ls ++ .terminator c :: ms)
      = ⟨(ofLexemes ls).form,
          (ofLexemes ls).chunk ++ .separator [c] :: (ofLexemes ms).toParts⟩ := by
  induction ls with
  | nil => rfl
  | cons l ls ih =>
      cases l with
      | terminator d => rw [List.cons_append, ofLexemes, ih, toParts_append]; rfl
      | space t => rw [List.cons_append, ofLexemes, ih]; rfl
      | primary p => rw [List.cons_append, ofLexemes, ih]; rfl

/-- **The tree of two lines with a terminator between them**: neither line is parsed differently
for the other. -/
theorem parse_join {a : List Char} (ha : QuotesClosed a) {c : Char} (hc : isTerminator c = true)
    (b : List Char) :
    (parse (a ++ c :: b)).parts = (parse a).parts ++ .separator [c] :: (parse b).parts := by
  show (Remainder.ofLexemes (lex (a ++ c :: b))).toParts = _
  rw [lex_join ha hc, Remainder.ofLexemes_append_terminator, Remainder.toParts_append]
  rfl

theorem forms_join {a : List Char} (ha : QuotesClosed a) {c : Char} (hc : isTerminator c = true)
    (b : List Char) : (parse (a ++ c :: b)).forms = (parse a).forms ++ (parse b).forms := by
  rw [Chunk.forms, parse_join ha hc, List.filterMap_append, List.filterMap_cons_none rfl]
  rfl

end LineShell
