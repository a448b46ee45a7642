import LineShell.Completion.Context
import LineShell.Proofs.Grouping
import LineShell.Proofs.Parts

/-!
# The words of a line

The words of a line can be read off its lexemes: segments side by side are a word, and a word is the
first of its form if no other word stands between it and the terminator before it.  So a row of
lexemes can be cut wherever no two segments meet, and the words on either side are found apart.

* `Chunk.words` — the words of a tree, among its nodes.
* `lexWords` — the words of a row of lexemes; **`words_parse`** says that these are the same.
* `nextIsHead` — whether the next word behind a row of lexemes is the first of its form.
* `lexWords_append`, `lexWords_append_separator` — the words of two rows between which no two
  segments meet, and of two rows with a separator between them.
-/

namespace LineShell

/-! ## The words of a tree -/

/-- A word of a line: whether it is the first of its form, and its text. -/
structure LineWord where
  head : Bool
  text : List Char
  deriving DecidableEq, Repr

def Node.word? (n : Node) : Option LineWord :=
  if n.kind = .compound then some ⟨n.isFormHead, n.text⟩ else none

/-- The words among the nodes of a tree, from left to right. -/
def Chunk.words (c : Chunk) : List LineWord :=
  c.nodes.filterMap Node.word?

/-- The words among the parts of a form, the first of them being the first of the form or not. -/
def FormPart.words : Bool → List FormPart → List LineWord
  | _, [] => []
  | head, .word w :: ps => ⟨head, w.text⟩ :: words false ps
  | head, .space _ :: ps => words head ps

def ChunkPart.words : List ChunkPart → List LineWord
  | [] => []
  | .form f :: ps => FormPart.words true f.parts ++ words ps
  | .separator _ :: ps => words ps

lemma filterMap_word?_formPart (f : Placed Form) (p : Placed FormPart) :
    (FormPart.nodes f p).filterMap Node.word? = match p.item with
      | .word w => [⟨p.index == 0, w.text⟩]
      | .space _ => [] := by
  obtain ⟨i, j, start, p⟩ := p
  cases p with
  | space t => rfl
  | word w =>
      have hprimaries : ((Compound.placed ⟨i, j, start, w⟩).map
          (Node.primary f ⟨i, j, start, w⟩)).filterMap Node.word? = [] := by
        rw [List.filterMap_map]
        exact List.filterMap_eq_nil_iff.2 fun q _ => rfl
      exact congrArg (List.cons (LineWord.mk (j == 0) w.text)) hprimaries

/-- Behind the first part of a form no word is the first of the form. -/
lemma filterMap_word?_arrange (f : Placed Form) {id index start : Nat} (hindex : index ≠ 0)
    (ps : List FormPart) :
    ((arrange id index start ps).flatMap (FormPart.nodes f)).filterMap Node.word?
      = FormPart.words false ps := by
  induction ps generalizing id index start with
  | nil => rfl
  | cons p ps ih =>
      rw [arrange, List.flatMap_cons, List.filterMap_append, filterMap_word?_formPart,
        ih (Nat.succ_ne_zero index)]
      cases p with
      | word w =>
          have hne : (index == 0) = false := by simpa using hindex
          simp only [hne]
          rfl
      | space t => rfl

lemma filterMap_word?_form {f : Placed Form} (h : f.item.WellFormed) :
    ((Form.placed f).flatMap (FormPart.nodes f)).filterMap Node.word?
      = FormPart.words true f.item.parts := by
  rw [Form.placed]
  match f.item.parts, h.ne_nil, h.alternates with
  | [], hne, _ => exact absurd rfl hne
  | .space t :: ps, _, halt => exact absurd halt.1 (by simp [FormPart.kind])
  | .word w :: ps, _, _ =>
      rw [arrange, List.flatMap_cons, List.filterMap_append, filterMap_word?_formPart,
        filterMap_word?_arrange f (by simp)]
      rfl

lemma filterMap_word?_chunk {id index start : Nat} {ps : List ChunkPart}
    (h : ∀ f, ChunkPart.form f ∈ ps → f.WellFormed) :
    ((arrange id index start ps).flatMap ChunkPart.nodes).filterMap Node.word?
      = ChunkPart.words ps := by
  induction ps generalizing id index start with
  | nil => rfl
  | cons p ps ih =>
      rw [arrange, List.flatMap_cons, List.filterMap_append,
        ih fun f hf => h f (List.mem_cons_of_mem _ hf)]
      cases p with
      | separator t => rfl
      | form f =>
          have hf := @filterMap_word?_form ⟨id, index, start, f⟩ (h f List.mem_cons_self)
          exact congrArg (· ++ ChunkPart.words ps) hf

lemma Chunk.words_eq {c : Chunk} (h : c.Canonical) : c.words = ChunkPart.words c.parts :=
  filterMap_word?_chunk h.forms

/-! ## The words of a row of lexemes -/

/-- The words of a row of lexemes; `head` says whether the first of them is the first of its
form. -/
def lexWords (head : Bool) (ls : List Lexeme) : List LineWord :=
  FormPart.words head (Remainder.ofLexemes ls).form
    ++ ChunkPart.words (Remainder.ofLexemes ls).chunk

lemma Remainder.words_toParts (r : Remainder) :
    ChunkPart.words r.toParts = FormPart.words true r.form ++ ChunkPart.words r.chunk := by
  obtain ⟨form, chunk⟩ := r
  match form with
  | [] | [.space _] | .space _ :: _ :: _ | .word _ :: _ => rfl

/-- **The words of a line are those of its lexemes.** -/
theorem words_parse (line : List Char) : (parse line).words = lexWords true (lex line) := by
  rw [Chunk.words_eq (parse_canonical line)]
  exact Remainder.words_toParts _

@[simp] lemma lexWords_nil (head : Bool) : lexWords head [] = [] := rfl

@[simp] lemma lexWords_terminator (head : Bool) (c : Char) (ls : List Lexeme) :
    lexWords head (.terminator c :: ls) = lexWords true ls :=
  Remainder.words_toParts _

@[simp] lemma lexWords_space (head : Bool) (t : List Char) (ls : List Lexeme) :
    lexWords head (.space t :: ls) = lexWords head ls := rfl

/-- A word of a row of lexemes that is made longer at its front. -/
def LineWord.behind (t : List Char) (w : LineWord) : LineWord :=
  { w with text := t ++ w.text }

def BeginsWithSegment : List Lexeme → Prop
  | .primary _ :: _ => True
  | _ => False

@[simp] lemma not_beginsWithSegment_nil : ¬ BeginsWithSegment [] := id

@[simp] lemma not_beginsWithSegment_terminator (c : Char) (ls : List Lexeme) :
    ¬ BeginsWithSegment (.terminator c :: ls) := id

@[simp] lemma not_beginsWithSegment_space (t : List Char) (ls : List Lexeme) :
    ¬ BeginsWithSegment (.space t :: ls) := id

lemma not_beginsWithSegment_append {ls ms : List Lexeme} (hls : ¬ BeginsWithSegment ls)
    (hms : ¬ BeginsWithSegment ms) : ¬ BeginsWithSegment (ls ++ ms) := by
  match ls, hls with
  | [], _ => exact hms
  | .terminator _ :: _, _ | .space _ :: _, _ => exact id
  | .primary p :: ls, hls => exact absurd trivial hls

lemma noWordFirst_of_not_begins {ls : List Lexeme} (h : ¬ BeginsWithSegment ls) :
    NoWordFirst (Remainder.ofLexemes ls).form := by
  match ls, h with
  | [], _ | .terminator _ :: _, _ | .space _ :: _, _ => trivial
  | .primary p :: ls, h => exact absurd trivial h

/-- A segment that nothing of its word follows. -/
lemma lexWords_primary {ls : List Lexeme} (h : ¬ BeginsWithSegment ls) (head : Bool)
    (p : Primary) : lexWords head (.primary p :: ls) = ⟨head, p.text⟩ :: lexWords false ls := by
  have hcons : FormPart.consPrimary p (Remainder.ofLexemes ls).form
      = .word ⟨[p]⟩ :: (Remainder.ofLexemes ls).form :=
    @foldr_consPrimary [p] _ (by simp) (noWordFirst_of_not_begins h)
  rw [lexWords, Remainder.ofLexemes, Remainder.mapForm, hcons]
  simp [FormPart.words, Compound.text, lexWords]

/-- A segment that another one of its word follows. -/
lemma lexWords_primary_primary (head : Bool) (p q : Primary) (ls : List Lexeme) :
    lexWords head (.primary p :: .primary q :: ls)
      = (lexWords head (.primary q :: ls)).modifyHead (LineWord.behind p.text) := by
  obtain ⟨w, ps, hword⟩ : ∃ w ps,
      FormPart.consPrimary q (Remainder.ofLexemes ls).form = .word w :: ps := by
    rw [FormPart.consPrimary.eq_def]
    split <;> exact ⟨_, _, rfl⟩
  simp only [lexWords, Remainder.ofLexemes, Remainder.mapForm, hword]
  rfl

lemma exists_lexWords_primary (head : Bool) (p : Primary) (ls : List Lexeme) :
    ∃ w ws, lexWords head (.primary p :: ls) = w :: ws := by
  induction ls generalizing p with
  | nil => exact ⟨_, _, lexWords_primary (by simp) head p⟩
  | cons l ls ih =>
      cases l with
      | terminator _ | space _ => exact ⟨_, _, lexWords_primary (by simp) head p⟩
      | primary q =>
          obtain ⟨w, ws, hw⟩ := ih q
          exact ⟨_, _, by rw [lexWords_primary_primary, hw, List.modifyHead_cons]⟩

/-- What is put before the first segment is put before the first word. -/
lemma lexWords_primary_behind {p q : Primary} {t : List Char} (h : q.text = t ++ p.text)
    (head : Bool) (ls : List Lexeme) :
    lexWords head (.primary q :: ls)
      = (lexWords head (.primary p :: ls)).modifyHead (LineWord.behind t) := by
  by_cases hls : BeginsWithSegment ls
  · match ls, hls with
    | .primary r :: ls, _ =>
        obtain ⟨w, ws, hw⟩ := exists_lexWords_primary head r ls
        rw [lexWords_primary_primary, lexWords_primary_primary, hw, h]
        simp [LineWord.behind]
  · rw [lexWords_primary hls, lexWords_primary hls, h]
    rfl

/-- Whether a word is the first of its form has nothing to do with its text. -/
lemma map_text_lexWords (head head' : Bool) (ls : List Lexeme) :
    (lexWords head ls).map LineWord.text = (lexWords head' ls).map LineWord.text := by
  have hform (ps : List FormPart) :
      (FormPart.words head ps).map LineWord.text = (FormPart.words head' ps).map LineWord.text := by
    induction ps with
    | nil => rfl
    | cons p ps ih =>
        cases p with
        | word w => rfl
        | space t => exact ih
  rw [lexWords, lexWords, List.map_append, List.map_append, hform]

/-! ## Two rows side by side -/

/-- Whether the next word behind a row of lexemes is the first of its form. -/
def nextIsHead : Bool → List Lexeme → Bool
  | head, [] => head
  | _, .terminator _ :: ls => nextIsHead true ls
  | head, .space _ :: ls => nextIsHead head ls
  | _, .primary _ :: ls => nextIsHead false ls

lemma nextIsHead_append (head : Bool) (ls ms : List Lexeme) :
    nextIsHead head (ls ++ ms) = nextIsHead (nextIsHead head ls) ms := by
  induction ls generalizing head with
  | nil => rfl
  | cons l ls ih => cases l <;> exact ih _

/-- The words of two rows between which no two segments meet. -/
theorem lexWords_append {ms : List Lexeme} (h : ¬ BeginsWithSegment ms) (head : Bool)
    (ls : List Lexeme) :
    lexWords head (ls ++ ms) = lexWords head ls ++ lexWords (nextIsHead head ls) ms := by
  induction ls generalizing head with
  | nil => rfl
  | cons l ls ih =>
      cases l with
      | terminator c => simp only [List.cons_append, lexWords_terminator, nextIsHead, ih]
      | space t => simp only [List.cons_append, lexWords_space, nextIsHead, ih]
      | primary p =>
          by_cases hls : BeginsWithSegment ls
          · match ls, hls with
            | .primary q :: ls, _ =>
                -- the word goes on in the row, so only its front is changed by this segment
                obtain ⟨w, ws, hw⟩ := exists_lexWords_primary head q ls
                have ih := ih head
                rw [hw, List.cons_append] at ih
                rw [List.cons_append, List.cons_append, lexWords_primary_primary, ih,
                  lexWords_primary_primary, hw]
                rfl
          · rw [List.cons_append, lexWords_primary (not_beginsWithSegment_append hls h),
              lexWords_primary hls, ih]
            rfl

/-! ## Around a separator -/

lemma not_beginsWithSegment_of_ne {l : Lexeme} (h : ∀ p, l ≠ .primary p) (ms : List Lexeme) :
    ¬ BeginsWithSegment (l :: ms) := by
  cases l with
  | terminator _ | space _ => exact id
  | primary p => exact absurd rfl (h p)

lemma lexWords_separator {l : Lexeme} (h : ∀ p, l ≠ .primary p) (head : Bool)
    (ms : List Lexeme) : lexWords head (l :: ms) = lexWords (nextIsHead head [l]) ms := by
  cases l with
  | terminator c => exact lexWords_terminator head c ms
  | space t => rfl
  | primary p => exact absurd rfl (h p)

/-- Words on both sides of a separator. -/
lemma lexWords_append_separator {l : Lexeme} (h : ∀ p, l ≠ .primary p) (head : Bool)
    (ls ms : List Lexeme) :
    lexWords head (ls ++ [l] ++ ms)
      = lexWords head (ls ++ [l]) ++ lexWords (nextIsHead head (ls ++ [l])) ms := by
  have hcut (ms : List Lexeme) : lexWords head (ls ++ l :: ms)
      = lexWords head ls ++ lexWords (nextIsHead head (ls ++ [l])) ms := by
    rw [lexWords_append (not_beginsWithSegment_of_ne h ms), lexWords_separator h,
      nextIsHead_append]
  rw [hcut [], List.append_assoc, List.singleton_append, hcut ms, lexWords_nil, List.append_nil]

end LineShell
