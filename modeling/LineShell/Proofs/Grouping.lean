import LineShell.Proofs.MaximalMunch
import LineShell.Syntax.Node
import Mathlib.Data.List.Chain

/-!
# Trees and rows of lexemes

A tree is read off a row of lexemes, and the row can be read off the tree.  The two readings undo
each other on the trees that keep to the grammar, and so the grammar alone decides what a line is
parsed to.

* `Chunk.lexemes` — the lexemes of a tree, from left to right.
* `Alternates` — two kinds of part by turns.
* `Form.WellFormed`, **`Chunk.Canonical`** — the trees that keep to the grammar.
* **`parse_eq_iff`** — the tree of a line is the one canonical tree with the text of the line.
-/

namespace LineShell

/-! ## The lexemes of a tree -/

/-- The lexeme of a separator between statements. -/
def Lexeme.ofSeparator (t : List Char) : Lexeme :=
  match t with
  | [c] => if isTerminator c then .terminator c else .space t
  | _ => .space t

def Compound.lexemes (w : Compound) : List Lexeme :=
  w.primaries.map .primary

def FormPart.lexemes : FormPart → List Lexeme
  | word w => w.lexemes
  | space t => [.space t]

def Form.lexemes (f : Form) : List Lexeme :=
  f.parts.flatMap FormPart.lexemes

def ChunkPart.lexemes : ChunkPart → List Lexeme
  | form f => f.lexemes
  | separator t => [.ofSeparator t]

def Chunk.lexemes (c : Chunk) : List Lexeme :=
  c.parts.flatMap ChunkPart.lexemes

lemma Lexeme.ofSeparator_terminator {c : Char} (h : isTerminator c = true) :
    ofSeparator [c] = .terminator c := by
  simp [ofSeparator, h]

lemma Lexeme.ofSeparator_space {t : List Char} (h : ∀ c ∈ t, isSpace c = true) :
    ofSeparator t = .space t := by
  rw [ofSeparator.eq_def]
  split
  · next c =>
    have hc : isTerminator c = false := isTerminator_of_isSpace (h c (by simp))
    simp [hc]
  · rfl

lemma Lexeme.ofSeparator_cases (t : List Char) :
    (∃ c, t = [c] ∧ isTerminator c = true ∧ ofSeparator t = .terminator c)
      ∨ ofSeparator t = .space t := by
  rw [ofSeparator.eq_def]
  split
  · next c =>
    split
    · next hc => exact .inl ⟨c, rfl, hc, rfl⟩
    · exact .inr rfl
  · exact .inr rfl

@[simp] lemma Lexeme.text_ofSeparator (t : List Char) : (ofSeparator t).text = t := by
  rcases ofSeparator_cases t with ⟨c, rfl, -, ht⟩ | ht <;> rw [ht] <;> rfl

@[simp] lemma Compound.flatMap_text_lexemes (w : Compound) :
    w.lexemes.flatMap Lexeme.text = w.text := by
  rw [Compound.lexemes, List.flatMap_map]
  rfl

@[simp] lemma FormPart.flatMap_text_lexemes (p : FormPart) :
    p.lexemes.flatMap Lexeme.text = p.text := by
  cases p with
  | word w => exact w.flatMap_text_lexemes
  | space t => simp [lexemes, text, Lexeme.text]

@[simp] lemma Form.flatMap_text_lexemes (f : Form) : f.lexemes.flatMap Lexeme.text = f.text := by
  rw [Form.lexemes, List.flatMap_assoc]
  simp [Form.text]

@[simp] lemma ChunkPart.flatMap_text_lexemes (p : ChunkPart) :
    p.lexemes.flatMap Lexeme.text = p.text := by
  cases p with
  | form f => exact f.flatMap_text_lexemes
  | separator t => simp [lexemes, text]

@[simp] lemma Chunk.flatMap_text_lexemes (c : Chunk) : c.lexemes.flatMap Lexeme.text = c.text := by
  rw [Chunk.lexemes, List.flatMap_assoc]
  simp [Chunk.text]

/-! ## Trees that keep to the grammar -/

/-- A list in which `a` and `b` take turns, `a` first. -/
def Alternates {α : Type} (a b : α) : List α → Prop
  | [] => True
  | x :: xs => x = a ∧ Alternates b a xs

def FormPart.kind : FormPart → NodeKind
  | word _ => .compound
  | space _ => .separator

def ChunkPart.kind : ChunkPart → NodeKind
  | form _ => .form
  | separator _ => .separator

/-- Words and blanks by turns, whatever comes first. -/
def FormPart.ByTurns (ps : List FormPart) : Prop :=
  Alternates .compound .separator (ps.map kind) ∨ Alternates .separator .compound (ps.map kind)

lemma FormPart.ByTurns.of_word {w : Compound} {ps : List FormPart} (h : ByTurns (.word w :: ps)) :
    Alternates .separator .compound (ps.map kind) := by
  rcases h with h | h
  · exact h.2
  · exact absurd h.1 (by simp [kind])

lemma FormPart.ByTurns.of_space {t : List Char} {ps : List FormPart}
    (h : ByTurns (.space t :: ps)) : Alternates .compound .separator (ps.map kind) := by
  rcases h with h | h
  · exact absurd h.1 (by simp [kind])
  · exact h.2

/-- Words and blanks by turns, a word first, and no word empty. -/
structure Form.WellFormed (f : Form) : Prop where
  ne_nil : f.parts ≠ []
  alternates : Alternates .compound .separator (f.parts.map FormPart.kind)
  words : ∀ w, FormPart.word w ∈ f.parts → w.primaries ≠ []

def ChunkPart.IsTerminator (p : ChunkPart) : Prop :=
  ∃ c, LineShell.isTerminator c = true ∧ p = .separator [c]

/-- If a statement stands before another part, that part is a terminator. -/
def ChunkPart.EndsBefore (p q : ChunkPart) : Prop :=
  p.kind = .form → q.IsTerminator

/-- A tree that keeps to the grammar: every statement is well formed, a terminator follows it
unless the line ends, and every lexeme ends where it does. -/
structure Chunk.Canonical (c : Chunk) : Prop where
  forms : ∀ f, ChunkPart.form f ∈ c.parts → f.WellFormed
  ends : c.parts.IsChain ChunkPart.EndsBefore
  row : Lexeme.Row c.lexemes []

/-! ## From a tree to its lexemes and back -/

def BeginsWithSpace : List Lexeme → Prop
  | .space _ :: _ => True
  | _ => False

lemma not_beginsWithSpace_of_stops {ls : List Lexeme} {rest : List Char}
    (h : Lexeme.Row ls rest) (hs : Stops isSpace (ls.flatMap Lexeme.text ++ rest)) :
    ¬ BeginsWithSpace ls := by
  intro hb
  match ls, hb with
  | .space t :: ls, _ =>
      obtain ⟨⟨hne, hall, -⟩, -⟩ := h
      obtain ⟨c, t, rfl⟩ := List.exists_cons_of_ne_nil hne
      have hc : isSpace c = false := by simpa [Lexeme.text] using hs
      rw [hall c (by simp)] at hc
      exact Bool.noConfusion hc

/-- Parts that do not begin with a word: a segment before them is a word of its own. -/
def NoWordFirst : List FormPart → Prop
  | .word _ :: _ => False
  | _ => True

lemma foldr_consPrimary {qs : List Primary} {ps : List FormPart} (hq : qs ≠ [])
    (h : NoWordFirst ps) : qs.foldr FormPart.consPrimary ps = .word ⟨qs⟩ :: ps := by
  induction qs with
  | nil => exact absurd rfl hq
  | cons q qs ih =>
      rw [List.foldr_cons]
      by_cases hqs : qs = []
      · subst hqs
        rw [List.foldr_nil]
        rw [FormPart.consPrimary.eq_def]
        split
        · exact absurd h (by simp [NoWordFirst])
        · rfl
      · rw [ih hqs]
        rfl

namespace Remainder

lemma ofLexemes_primaries_append (qs : List Primary) (ls : List Lexeme) :
    ofLexemes (qs.map .primary ++ ls)
      = (ofLexemes ls).mapForm fun ps => qs.foldr FormPart.consPrimary ps := by
  induction qs with
  | nil => rfl
  | cons q qs ih =>
      rw [List.map_cons, List.cons_append, ofLexemes, ih]
      rfl

/-- The parts of a form are read back from its lexemes, if the statement ends after them. -/
lemma ofLexemes_form_append {ps : List FormPart} {ls : List Lexeme}
    (halt : FormPart.ByTurns ps)
    (hwords : ∀ w, FormPart.word w ∈ ps → w.primaries ≠ [])
    (hend : (ofLexemes ls).form = []) :
    ofLexemes (ps.flatMap FormPart.lexemes ++ ls) = ⟨ps, (ofLexemes ls).chunk⟩ := by
  induction ps with
  | nil =>
      rw [List.flatMap_nil, List.nil_append, ← hend]
  | cons p ps ih =>
      have hw : ∀ w, FormPart.word w ∈ ps → w.primaries ≠ [] :=
        fun w hm => hwords w (List.mem_cons_of_mem _ hm)
      rw [List.flatMap_cons, List.append_assoc]
      cases p with
      | word w =>
          have halt' := halt.of_word
          have hfirst : NoWordFirst ps := by
            match ps, halt' with
            | [], _ => trivial
            | .space _ :: _, _ => trivial
            | .word _ :: _, h => exact absurd h.1 (by simp [FormPart.kind])
          rw [FormPart.lexemes, Compound.lexemes, ofLexemes_primaries_append,
            ih (.inr halt') hw, mapForm, foldr_consPrimary (hwords w (by simp)) hfirst]
      | space t =>
          rw [FormPart.lexemes, List.singleton_append, ofLexemes, ih (.inl halt.of_space) hw]
          rfl

lemma toParts_of_form_eq_nil {r : Remainder} (h : r.form = []) : r.toParts = r.chunk := by
  obtain ⟨form, chunk⟩ := r
  obtain rfl : form = [] := h
  rfl

lemma toParts_form {f : Form} (h : f.WellFormed) (after : List ChunkPart) :
    toParts ⟨f.parts, after⟩ = .form f :: after := by
  obtain ⟨ps⟩ := f
  match ps, h.ne_nil, h.alternates with
  | [], hne, _ => exact absurd rfl hne
  | .word w :: ps, _, _ => rfl
  | .space t :: ps, _, halt => exact absurd halt.1 (by simp [FormPart.kind])

/-- Blanks before the rest of a line separate, if they do not go on. -/
lemma toParts_space_cons {r : Remainder} {t : List Char}
    (h : ∀ u ps, r.form ≠ .space u :: ps) :
    (r.mapForm (.space t :: ·)).toParts = .separator t :: r.toParts := by
  obtain ⟨form, chunk⟩ := r
  match form with
  | [] => rfl
  | .word w :: ps => rfl
  | .space u :: ps => exact absurd rfl (h u ps)

lemma form_ofLexemes_ne_space {ls : List Lexeme} (h : ¬ BeginsWithSpace ls) :
    ∀ u ps, (ofLexemes ls).form ≠ .space u :: ps := by
  intro u ps
  match ls with
  | [] => simp [ofLexemes]
  | .terminator c :: ls => simp [ofLexemes]
  | .space t :: ls => exact absurd trivial h
  | .primary p :: ls =>
      rw [ofLexemes, mapForm]
      rw [FormPart.consPrimary.eq_def]
      split <;> simp

end Remainder

/-- The parts of a tree that keeps to the grammar are read back from its lexemes. -/
lemma Remainder.toParts_ofLexemes_flatMap {ps : List ChunkPart}
    (hforms : ∀ f, ChunkPart.form f ∈ ps → f.WellFormed)
    (hends : ps.IsChain ChunkPart.EndsBefore)
    (hrow : Lexeme.Row (ps.flatMap ChunkPart.lexemes) []) :
    (ofLexemes (ps.flatMap ChunkPart.lexemes)).toParts = ps := by
  induction ps with
  | nil => rfl
  | cons p ps ih =>
      obtain ⟨hhead, htail⟩ := List.isChain_cons.1 hends
      rw [List.flatMap_cons] at hrow ⊢
      obtain ⟨hp, hps⟩ := Lexeme.row_append_iff.1 hrow
      have ih := ih (fun f hf => hforms f (List.mem_cons_of_mem _ hf)) htail hps
      cases p with
      | separator t =>
          rcases Lexeme.ofSeparator_cases t with ⟨c, rfl, -, ht⟩ | ht
          · rw [ChunkPart.lexemes, ht, List.singleton_append, ofLexemes, ih]
            rfl
          · rw [ChunkPart.lexemes, ht] at hp
            have hb := not_beginsWithSpace_of_stops hps hp.1.2.2
            rw [ChunkPart.lexemes, ht, List.singleton_append, ofLexemes,
              toParts_space_cons (form_ofLexemes_ne_space hb), ih]
      | form f =>
          have hf := hforms f (by simp)
          have hend : (ofLexemes (ps.flatMap ChunkPart.lexemes)).form = [] := by
            match ps, hhead with
            | [], _ => rfl
            | q :: ps, hhead =>
                obtain ⟨c, hc, rfl⟩ := hhead q (by simp) rfl
                rw [List.flatMap_cons, ChunkPart.lexemes, Lexeme.ofSeparator_terminator hc]
                rfl
          have hchunk : (ofLexemes (ps.flatMap ChunkPart.lexemes)).chunk = ps := by
            rw [← toParts_of_form_eq_nil hend, ih]
          rw [ChunkPart.lexemes, Form.lexemes,
            ofLexemes_form_append (.inl hf.alternates) hf.words hend, hchunk]
          exact toParts_form hf ps

theorem Chunk.ofLexemes_lexemes {c : Chunk} (h : c.Canonical) : Chunk.ofLexemes c.lexemes = c := by
  rw [Chunk.ofLexemes, Chunk.lexemes, Remainder.toParts_ofLexemes_flatMap h.forms h.ends h.row]

/-! ## From lexemes to a tree that keeps to the grammar -/

/-- What holds of the rest of a line seen from inside a statement.  The statement may go on with
a word or with blanks; what follows it begins with a terminator. -/
structure Remainder.WellFormed (r : Remainder) : Prop where
  alternates : FormPart.ByTurns r.form
  words : ∀ w, FormPart.word w ∈ r.form → w.primaries ≠ []
  spaces : ∀ t, FormPart.space t ∈ r.form → ∀ c ∈ t, isSpace c = true
  forms : ∀ f, ChunkPart.form f ∈ r.chunk → f.WellFormed
  ends : r.chunk.IsChain ChunkPart.EndsBefore
  after : ∀ p ∈ r.chunk.head?, p.IsTerminator

namespace Remainder

lemma WellFormed.wellFormed_form {r : Remainder} (h : r.WellFormed) {w : Compound}
    {ps : List FormPart} (hr : FormPart.word w :: ps <:+ r.form)
    (halt : Alternates .separator .compound (ps.map FormPart.kind)) :
    Form.WellFormed ⟨.word w :: ps⟩ where
  ne_nil := List.cons_ne_nil _ _
  alternates := ⟨rfl, halt⟩
  words v hv := h.words v (hr.subset hv)

/-- A part before what follows a statement; blanks there do not end it. -/
lemma WellFormed.isChain_cons {r : Remainder} (h : r.WellFormed) (p : ChunkPart) :
    (p :: r.chunk).IsChain ChunkPart.EndsBefore :=
  List.isChain_cons.2 ⟨fun q hq _ => h.after q hq, h.ends⟩

lemma WellFormed.toParts {r : Remainder} (h : r.WellFormed) :
    (∀ f, ChunkPart.form f ∈ r.toParts → f.WellFormed) ∧
      r.toParts.IsChain ChunkPart.EndsBefore := by
  obtain ⟨form, chunk⟩ := r
  match form, h with
  | [], h => exact ⟨h.forms, h.ends⟩
  | [.space t], h =>
      refine ⟨?_, h.isChain_cons (.separator t)⟩
      intro f hf
      exact h.forms f (by simpa [Remainder.toParts] using hf)
  | .space t :: .space u :: ps, h => exact absurd h.alternates.of_space.1 (by simp [FormPart.kind])
  | .space t :: .word w :: ps, h =>
      have hf := h.wellFormed_form (List.suffix_cons _ _) h.alternates.of_space.2
      refine ⟨?_, ?_⟩
      · intro f hm
        rcases List.mem_cons.1 hm with hm | hm
        · exact absurd hm (by simp)
        · rcases List.mem_cons.1 hm with hm | hm
          · rw [ChunkPart.form.inj hm]
            exact hf
          · exact h.forms f hm
      · refine List.isChain_cons.2 ⟨?_, h.isChain_cons (.form ⟨.word w :: ps⟩)⟩
        intro q _ hk
        exact absurd hk (by simp [ChunkPart.kind])
  | .word w :: ps, h =>
      refine ⟨?_, h.isChain_cons (.form ⟨.word w :: ps⟩)⟩
      intro f hm
      rcases List.mem_cons.1 hm with hm | hm
      · rw [ChunkPart.form.inj hm]
        exact h.wellFormed_form (List.suffix_refl _) h.alternates.of_word
      · exact h.forms f hm

lemma WellFormed.flatMap_lexemes_toParts {r : Remainder} (h : r.WellFormed) :
    r.toParts.flatMap ChunkPart.lexemes
      = r.form.flatMap FormPart.lexemes ++ r.chunk.flatMap ChunkPart.lexemes := by
  obtain ⟨form, chunk⟩ := r
  match form, h with
  | [], _ => rfl
  | [.space t], h =>
      have ht := Lexeme.ofSeparator_space (h.spaces t (by simp))
      simp [Remainder.toParts, ChunkPart.lexemes, FormPart.lexemes, ht]
  | .space t :: p :: ps, h =>
      have ht := Lexeme.ofSeparator_space (h.spaces t (by simp))
      simp [Remainder.toParts, ChunkPart.lexemes, FormPart.lexemes, Form.lexemes, ht]
  | .word w :: ps, _ => simp [Remainder.toParts, ChunkPart.lexemes, Form.lexemes]

lemma WellFormed.consPrimary {r : Remainder} (h : r.WellFormed) (p : Primary) :
    (r.mapForm (FormPart.consPrimary p)).WellFormed := by
  obtain ⟨form, chunk⟩ := r
  match form, h with
  | [], h =>
      exact ⟨.inl ⟨rfl, trivial⟩, by simp [mapForm, FormPart.consPrimary],
        by simp [mapForm, FormPart.consPrimary], h.forms, h.ends, h.after⟩
  | .word w :: ps, h =>
      refine ⟨h.alternates, ?_, ?_, h.forms, h.ends, h.after⟩
      · intro v hv
        rcases List.mem_cons.1 hv with hv | hv
        · rw [FormPart.word.inj hv]
          exact List.cons_ne_nil _ _
        · exact h.words v (List.mem_cons_of_mem _ hv)
      · intro t ht
        rcases List.mem_cons.1 ht with ht | ht
        · exact absurd ht (by simp)
        · exact h.spaces t (List.mem_cons_of_mem _ ht)
  | .space t :: ps, h =>
      refine ⟨.inl ⟨rfl, rfl, h.alternates.of_space⟩, ?_, ?_, h.forms, h.ends, h.after⟩
      · intro v hv
        rcases List.mem_cons.1 hv with hv | hv
        · rw [FormPart.word.inj hv]
          exact List.cons_ne_nil _ _
        · exact h.words v hv
      · intro u hu
        rcases List.mem_cons.1 hu with hu | hu
        · exact absurd hu (by simp)
        · exact h.spaces u hu

/-- Blanks before the rest of a statement keep it well formed, if they do not go on. -/
lemma WellFormed.consSpace {r : Remainder} (h : r.WellFormed) {t : List Char}
    (ht : ∀ c ∈ t, isSpace c = true) (hr : ∀ u ps, r.form ≠ .space u :: ps) :
    (r.mapForm (.space t :: ·)).WellFormed := by
  obtain ⟨form, chunk⟩ := r
  have halt : Alternates .compound .separator (form.map FormPart.kind) := by
    match form, h, hr with
    | [], _, _ => trivial
    | .space u :: ps, _, hr => exact absurd rfl (hr u ps)
    | .word w :: ps, h, _ => exact ⟨rfl, h.alternates.of_word⟩
  refine ⟨.inr ⟨rfl, halt⟩, ?_, ?_, h.forms, h.ends, h.after⟩
  · intro w hw
    rcases List.mem_cons.1 hw with hw | hw
    · exact absurd hw (by simp)
    · exact h.words w hw
  · intro u hu
    rcases List.mem_cons.1 hu with hu | hu
    · rw [FormPart.space.inj hu]
      exact ht
    · exact h.spaces u hu

lemma wellFormed_ofLexemes {ls : List Lexeme} (h : Lexeme.Row ls []) :
    (ofLexemes ls).WellFormed := by
  induction ls with
  | nil => exact ⟨.inl trivial, by simp [ofLexemes], by simp [ofLexemes], by simp [ofLexemes],
      List.IsChain.nil, by simp [ofLexemes]⟩
  | cons l ls ih =>
      obtain ⟨hl, hls⟩ := h
      have ih := ih hls
      cases l with
      | terminator c =>
          obtain ⟨hforms, hends⟩ := ih.toParts
          refine ⟨.inl trivial, by simp [ofLexemes], by simp [ofLexemes], ?_, ?_, ?_⟩
          · intro f hf
            exact hforms f (by simpa [ofLexemes] using hf)
          · refine List.isChain_cons.2 ⟨?_, hends⟩
            intro q _ hk
            exact absurd hk (by simp [ChunkPart.kind])
          · intro p hp
            obtain rfl : .separator [c] = p := by simpa [ofLexemes] using hp
            exact ⟨c, hl, rfl⟩
      | space t =>
          have hb := not_beginsWithSpace_of_stops hls hl.2.2
          exact ih.consSpace hl.2.1 (form_ofLexemes_ne_space hb)
      | primary p => exact ih.consPrimary p

lemma flatMap_lexemes_consPrimary (p : Primary) (ps : List FormPart) :
    (FormPart.consPrimary p ps).flatMap FormPart.lexemes
      = .primary p :: ps.flatMap FormPart.lexemes := by
  rw [FormPart.consPrimary.eq_def]
  split <;> simp [FormPart.lexemes, Compound.lexemes]

lemma flatMap_lexemes_ofLexemes {ls : List Lexeme} (h : Lexeme.Row ls []) :
    (ofLexemes ls).form.flatMap FormPart.lexemes ++ (ofLexemes ls).chunk.flatMap ChunkPart.lexemes
      = ls := by
  induction ls with
  | nil => rfl
  | cons l ls ih =>
      obtain ⟨hl, hls⟩ := h
      have ih := ih hls
      cases l with
      | terminator c =>
          have hc := Lexeme.ofSeparator_terminator hl
          have hp := (wellFormed_ofLexemes hls).flatMap_lexemes_toParts
          rw [ofLexemes, List.flatMap_nil, List.nil_append, List.flatMap_cons, hp, ih,
            ChunkPart.lexemes, hc]
          rfl
      | space t =>
          rw [ofLexemes, mapForm, List.flatMap_cons, FormPart.lexemes, List.append_assoc, ih]
          rfl
      | primary p =>
          rw [ofLexemes, mapForm, flatMap_lexemes_consPrimary, List.cons_append, ih]

end Remainder

lemma Chunk.lexemes_ofLexemes {ls : List Lexeme} (h : Lexeme.Row ls []) :
    (Chunk.ofLexemes ls).lexemes = ls := by
  rw [Chunk.ofLexemes, Chunk.lexemes,
    (Remainder.wellFormed_ofLexemes h).flatMap_lexemes_toParts,
    Remainder.flatMap_lexemes_ofLexemes h]

theorem parse_canonical (line : List Char) : (parse line).Canonical := by
  obtain ⟨hforms, hends⟩ := (Remainder.wellFormed_ofLexemes (row_lex line)).toParts
  refine ⟨hforms, hends, ?_⟩
  rw [parse, Chunk.lexemes_ofLexemes (row_lex line)]
  exact row_lex line

/-- **A line is parsed to the one tree that has its text and keeps to the grammar.** -/
theorem parse_eq_iff {line : List Char} {c : Chunk} :
    parse line = c ↔ c.text = line ∧ c.Canonical := by
  constructor
  · rintro rfl
    exact ⟨parse_text line, parse_canonical line⟩
  · rintro ⟨rfl, h⟩
    have hlex : lex c.text = c.lexemes := lex_eq_iff.2 ⟨c.flatMap_text_lexemes, h.row⟩
    rw [parse, hlex, Chunk.ofLexemes_lexemes h]

end LineShell
