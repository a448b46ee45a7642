import LineShell.Proofs.OneContext
import Mathlib.Data.List.Forall2

/-!
# Lines of one shape

Grouping asks of a lexeme only what kind it is, and of a segment only what kind of segment.  So two
lines whose lexemes are of the same kinds, one by one, have the same tree, down to the numbers of
the nodes; what differs is where the nodes stand, and this is told by where the lexemes end.

* `Siblings` — two rows of pieces that are related place by place, with a map of the bytes of one
  line to those of the other that takes ends to ends (`Carries`).
* `Lexeme.Carried`, `ChunkPart.Carried` and those between — lexemes and parts of the same kinds.
* `siblings_parts_ofLexemes` — such rows of lexemes are grouped to such trees.
* **`forall₂_nodes_parse`** — the nodes of two lines of one shape agree but for their spans.
-/

namespace LineShell

variable {g : Nat → Nat}

instance : Piece Lexeme := ⟨Lexeme.text, fun _ => 1⟩

/-! ## Rows of siblings -/

/-- The same place in two trees. -/
structure Placed.Carried {α : Type} (g : Nat → Nat) (R : Nat → α → α → Prop)
    (p q : Placed α) : Prop where
  id : q.id = p.id
  index : q.index = p.index
  start : q.start = g p.start
  item : R p.start p.item q.item

lemma Placed.Carried.exists_eq {α : Type} {R : Nat → α → α → Prop} {p q : Placed α}
    (h : Placed.Carried g R p q) : ∃ b, q = ⟨p.id, p.index, g p.start, b⟩ ∧ R p.start p.item b := by
  obtain ⟨i, j, start, b⟩ := q
  obtain ⟨hid, hindex, hstart, hitem⟩ := h
  obtain rfl : i = p.id := hid
  obtain rfl : j = p.index := hindex
  obtain rfl : start = g p.start := hstart
  exact ⟨b, rfl, hitem⟩

section siblings

variable {α : Type} [Piece α] {R : Nat → α → α → Prop}

/-- A map of bytes takes the end of one piece, which begins at `start`, to the end of another one
that begins where `start` is taken. -/
def Carries (g : Nat → Nat) (start : Nat) (a b : α) : Prop :=
  g (start + byteSize (Piece.text a)) = g start + byteSize (Piece.text b)

/-- Two rows of as many pieces, related place by place.  The relation knows the byte at which the
piece of the first row begins. -/
def Siblings (R : Nat → α → α → Prop) : Nat → List α → List α → Prop
  | _, [], [] => True
  | start, a :: as, b :: bs => R start a b ∧ Siblings R (start + byteSize (Piece.text a)) as bs
  | _, _, _ => False

/-- A relation between pieces that cover what a map of bytes takes to each other, and count as
equally many nodes. -/
structure Carrying (g : Nat → Nat) (R : Nat → α → α → Prop) : Prop where
  carries : ∀ {start a b}, R start a b → Carries g start a b
  count : ∀ {start a b}, R start a b → Piece.count b = Piece.count a

lemma Siblings.append {start : Nat} {as bs cs ds : List α} (h : Siblings R start as cs)
    (h' : Siblings R (start + byteSize (as.flatMap Piece.text)) bs ds) :
    Siblings R start (as ++ bs) (cs ++ ds) := by
  induction as generalizing start cs with
  | nil =>
      match cs, h with
      | [], _ => simpa using h'
  | cons a as ih =>
      match cs, h with
      | c :: cs, h =>
          refine ⟨h.1, ih h.2 ?_⟩
          rwa [List.flatMap_cons, byteSize_append, ← Nat.add_assoc] at h'

lemma Siblings.carries (hR : Carrying g R) {start : Nat} {as bs : List α}
    (h : Siblings R start as bs) :
    g (start + byteSize (as.flatMap Piece.text)) = g start + byteSize (bs.flatMap Piece.text) := by
  induction as generalizing start bs with
  | nil =>
      match bs, h with
      | [], _ => rfl
  | cons a as ih =>
      match bs, h with
      | b :: bs, h =>
          have hend : g (start + byteSize (Piece.text a)) = g start + byteSize (Piece.text b) :=
            hR.carries h.1
          rw [List.flatMap_cons, List.flatMap_cons, byteSize_append, byteSize_append,
            ← Nat.add_assoc, ih h.2, hend, Nat.add_assoc]

lemma Siblings.total (hR : Carrying g R) {start : Nat} {as bs : List α}
    (h : Siblings R start as bs) :
    bs.length = as.length ∧ Piece.total bs = Piece.total as := by
  induction as generalizing start bs with
  | nil =>
      match bs, h with
      | [], _ => exact ⟨rfl, rfl⟩
  | cons a as ih =>
      match bs, h with
      | b :: bs, h =>
          obtain ⟨hlength, htotal⟩ := ih h.2
          refine ⟨congrArg (· + 1) hlength, ?_⟩
          rw [total_cons, total_cons, htotal, hR.count h.1]

/-- Related siblings have related places. -/
lemma Siblings.arrange (hR : Carrying g R) {id index start : Nat} {as bs : List α}
    (h : Siblings R start as bs) :
    List.Forall₂ (Placed.Carried g R) (arrange id index start as)
      (arrange id index (g start) bs) := by
  induction as generalizing id index start bs with
  | nil =>
      match bs, h with
      | [], _ => exact .nil
  | cons a as ih =>
      match bs, h with
      | b :: bs, h =>
          have hend : g (start + byteSize (Piece.text a)) = g start + byteSize (Piece.text b) :=
            hR.carries h.1
          refine .cons ⟨rfl, rfl, rfl, h.1⟩ ?_
          rw [hR.count h.1, ← hend]
          exact ih h.2

end siblings

/-! ## Pieces of the same kind -/

def Primary.Carried (g : Nat → Nat) (start : Nat) (p q : Primary) : Prop :=
  q.kind = p.kind ∧ Carries g start p q

def Compound.Carried (g : Nat → Nat) (start : Nat) (w v : Compound) : Prop :=
  Siblings (Primary.Carried g) start w.primaries v.primaries

def FormPart.Carried (g : Nat → Nat) (start : Nat) : FormPart → FormPart → Prop
  | word w, word v => w.Carried g start v
  | space t, space u => Carries g start (space t) (space u)
  | _, _ => False

def Form.Carried (g : Nat → Nat) (start : Nat) (f h : Form) : Prop :=
  Siblings (FormPart.Carried g) start f.parts h.parts

def ChunkPart.Carried (g : Nat → Nat) (start : Nat) : ChunkPart → ChunkPart → Prop
  | form f, form h => f.Carried g start h
  | separator t, separator u => Carries g start (separator t) (separator u)
  | _, _ => False

def Lexeme.Carried (g : Nat → Nat) (start : Nat) : Lexeme → Lexeme → Prop
  | terminator c, terminator d => Carries g start (terminator c) (terminator d)
  | space t, space u => Carries g start (space t) (space u)
  | primary p, primary q => p.Carried g start q
  | _, _ => False

lemma carrying_primary : Carrying g (Primary.Carried g) where
  carries h := h.2
  count _ := rfl

lemma carrying_formPart : Carrying g (FormPart.Carried g) where
  carries {start a b} h := by
    match a, b, h with
    | .word w, .word v, h => exact Siblings.carries carrying_primary h
    | .space t, .space u, h => exact h
  count {start a b} h := by
    match a, b, h with
    | .word w, .word v, h => exact congrArg (1 + ·) (Siblings.total carrying_primary h).1
    | .space t, .space u, h => rfl

lemma carrying_chunkPart : Carrying g (ChunkPart.Carried g) where
  carries {start a b} h := by
    match a, b, h with
    | .form f, .form f', h => exact Siblings.carries carrying_formPart h
    | .separator t, .separator u, h => exact h
  count {start a b} h := by
    match a, b, h with
    | .form f, .form f', h => exact congrArg (1 + ·) (Siblings.total carrying_formPart h).2
    | .separator t, .separator u, h => rfl

/-! ## Grouping -/

/-- What is left of two lines, seen from inside a statement that goes on at `start`. -/
def Remainder.Carried (g : Nat → Nat) (start : Nat) (r s : Remainder) : Prop :=
  Siblings (FormPart.Carried g) start r.form s.form ∧
    Siblings (ChunkPart.Carried g) (start + byteSize (r.form.flatMap FormPart.text)) r.chunk s.chunk

namespace Remainder

lemma Carried.toParts {start : Nat} {r s : Remainder} (h : r.Carried g start s) :
    Siblings (ChunkPart.Carried g) start r.toParts s.toParts := by
  obtain ⟨form, chunk⟩ := r
  obtain ⟨form', chunk'⟩ := s
  obtain ⟨hform, hchunk⟩ := h
  match form, form', hform with
  | [], [], _ =>
      show Siblings _ start chunk chunk'
      simpa using hchunk
  | [.space t], [.space u], hform =>
      refine ⟨hform.1, ?_⟩
      simpa [FormPart.text, ChunkPart.text, Piece.text] using hchunk
  | .space t :: p :: ps, .space u :: q :: qs, hform =>
      refine ⟨hform.1, hform.2, ?_⟩
      simpa [FormPart.text, ChunkPart.text, Form.text, Piece.text, Nat.add_assoc] using hchunk
  | .word w :: ps, .word v :: qs, hform =>
      refine ⟨hform, ?_⟩
      simpa [ChunkPart.text, Form.text, Piece.text] using hchunk

lemma Carried.consPrimary {start : Nat} {p q : Primary} (hp : p.Carried g start q)
    {r s : Remainder} (h : r.Carried g (start + byteSize p.text) s) :
    (r.mapForm (FormPart.consPrimary p)).Carried g start
      (s.mapForm (FormPart.consPrimary q)) := by
  obtain ⟨form, chunk⟩ := r
  obtain ⟨form', chunk'⟩ := s
  obtain ⟨hform, hchunk⟩ := h
  refine ⟨?_, ?_⟩
  · match form, form', hform with
    | [], [], _ => exact ⟨⟨hp, trivial⟩, trivial⟩
    | .space t :: ps, .space u :: qs, hform =>
        refine ⟨⟨hp, trivial⟩, ?_⟩
        simpa [FormPart.text, Compound.text, Piece.text] using hform
    | .word w :: ps, .word v :: qs, hform =>
        refine ⟨⟨hp, hform.1⟩, ?_⟩
        simpa [FormPart.text, Compound.text, Piece.text, Nat.add_assoc] using hform.2
  · simpa [mapForm, Nat.add_assoc] using hchunk

/-- Rows of lexemes of the same kinds leave the same of a statement. -/
lemma carried_ofLexemes {start : Nat} {ls ms : List Lexeme}
    (h : Siblings (Lexeme.Carried g) start ls ms) :
    (ofLexemes ls).Carried g start (ofLexemes ms) := by
  induction ls generalizing start ms with
  | nil =>
      match ms, h with
      | [], _ => exact ⟨trivial, trivial⟩
  | cons l ls ih =>
      match l, ms, h with
      | .terminator c, .terminator d :: ms, h => exact ⟨trivial, h.1, (ih h.2).toParts⟩
      | .space t, .space u :: ms, h =>
          refine ⟨⟨h.1, (ih h.2).1⟩, ?_⟩
          have hchunk := (ih h.2).2
          simpa [ofLexemes, mapForm, FormPart.text, Lexeme.text, Piece.text, Nat.add_assoc]
            using hchunk
      | .primary p, .primary q :: ms, h => exact Carried.consPrimary h.1 (ih h.2)

end Remainder

lemma siblings_parts_ofLexemes {ls ms : List Lexeme} (h : Siblings (Lexeme.Carried g) 0 ls ms) :
    Siblings (ChunkPart.Carried g) 0 (Chunk.ofLexemes ls).parts (Chunk.ofLexemes ms).parts :=
  (Remainder.carried_ofLexemes h).toParts

/-! ## Nodes -/

/-- A node whose bytes are found elsewhere. -/
def Cell.move (g : Nat → Nat) (n : Cell) : Cell :=
  { n with start := g n.start, stop := g n.stop }

/-- The same node in two trees. -/
structure Node.Carried (g : Nat → Nat) (n m : Node) : Prop where
  id : m.id = n.id
  cell : m.cell = n.cell.move g
  contextKind : m.contextKind? = n.contextKind?

namespace Node.Carried

variable {n m : Node}

lemma start (h : Node.Carried g n m) : m.start = g n.start := congrArg Cell.start h.cell

lemma stop (h : Node.Carried g n m) : m.stop = g n.stop := congrArg Cell.stop h.cell

lemma children (h : Node.Carried g n m) : m.children = n.children := congrArg Cell.children h.cell

lemma map_id_eq {ns ms : List Node} (h : List.Forall₂ (Node.Carried g) ns ms) :
    ms.map Node.id = ns.map Node.id := by
  induction h with
  | nil => rfl
  | cons hnm _ ih => rw [List.map_cons, List.map_cons, hnm.id, ih]

lemma map_cell_eq {ns ms : List Node} (h : List.Forall₂ (Node.Carried g) ns ms) :
    ms.map Node.cell = (ns.map Node.cell).map (Cell.move g) := by
  induction h with
  | nil => rfl
  | cons hnm _ ih => rw [List.map_cons, List.map_cons, List.map_cons, hnm.cell, ih]

end Node.Carried

lemma map_id_eq_of_forall₂ {α : Type} [Piece α] {R : Nat → α → α → Prop} {ps qs : List (Placed α)}
    (h : List.Forall₂ (Placed.Carried g R) ps qs) : qs.map Placed.id = ps.map Placed.id := by
  induction h with
  | nil => rfl
  | cons hpq _ ih => rw [List.map_cons, List.map_cons, hpq.id, ih]

lemma Node.carried_primary {f f' : Placed Form} {w w' : Placed Compound} {p q : Placed Primary}
    (hw : Placed.Carried g (Compound.Carried g) w w')
    (h : Placed.Carried g (Primary.Carried g) p q) :
    (Node.primary f w p).Carried g (.primary f' w' q) := by
  have hindex := hw.index
  have hlength := (Siblings.total carrying_primary hw.item).1
  obtain ⟨i, j, start, p⟩ := p
  obtain ⟨q, rfl, hkind, hend⟩ : ∃ b, q = ⟨i, j, g start, b⟩ ∧ _ := h.exists_eq
  refine ⟨rfl, ?_, ?_⟩
  · show Cell.mk (.primary q.kind) (g start) (g start + byteSize q.text) (some w'.id) []
      = ⟨.primary p.kind, g start, g (start + byteSize p.text), some w.id, []⟩
    have hend : g (start + byteSize p.text) = g start + byteSize q.text := hend
    rw [hkind, hend, hw.id]
  · cases p <;> cases q <;> simp_all [contextKind?, Primary.kind]

lemma forall₂_nodes_formPart {f f' : Placed Form} (hf : f'.id = f.id) {p q : Placed FormPart}
    (h : Placed.Carried g (FormPart.Carried g) p q) :
    List.Forall₂ (Node.Carried g) (FormPart.nodes f p) (FormPart.nodes f' q) := by
  obtain ⟨i, j, start, p⟩ := p
  obtain ⟨q, rfl, hitem⟩ : ∃ b, q = ⟨i, j, g start, b⟩ ∧ _ := h.exists_eq
  have hend : g (start + byteSize p.text) = g start + byteSize q.text :=
    carrying_formPart.carries hitem
  match p, q, hitem with
  | .space t, .space u, _ =>
      refine .cons ⟨rfl, ?_, rfl⟩ .nil
      show Cell.mk .separator (g start) (g start + byteSize u) (some f'.id) []
        = ⟨.separator, g start, g (start + byteSize t), some f.id, []⟩
      rw [hf]
      exact congrArg (Cell.mk _ _ · _ _) hend.symm
  | .word w, .word v, hitem =>
      have hplaced : List.Forall₂ (Placed.Carried g (Primary.Carried g))
          (Compound.placed ⟨i, j, start, w⟩) (Compound.placed ⟨i, j, g start, v⟩) :=
        Siblings.arrange carrying_primary hitem
      have hword : Placed.Carried g (Compound.Carried g) ⟨i, j, start, w⟩ ⟨i, j, g start, v⟩ :=
        ⟨rfl, rfl, rfl, hitem⟩
      refine .cons ⟨rfl, ?_, rfl⟩ ?_
      · show Cell.mk .compound (g start) (g start + byteSize v.text) (some f'.id)
            ((Compound.placed ⟨i, j, g start, v⟩).map Placed.id)
          = ⟨.compound, g start, g (start + byteSize w.text), some f.id,
              (Compound.placed ⟨i, j, start, w⟩).map Placed.id⟩
        rw [hf, map_id_eq_of_forall₂ hplaced]
        exact congrArg (Cell.mk _ _ · _ _) hend.symm
      · exact List.rel_map (fun _ _ hp => Node.carried_primary hword hp) hplaced

lemma forall₂_nodes_chunkPart {p q : Placed ChunkPart}
    (h : Placed.Carried g (ChunkPart.Carried g) p q) :
    List.Forall₂ (Node.Carried g) (ChunkPart.nodes p) (ChunkPart.nodes q) := by
  obtain ⟨i, j, start, p⟩ := p
  obtain ⟨q, rfl, hitem⟩ : ∃ b, q = ⟨i, j, g start, b⟩ ∧ _ := h.exists_eq
  have hend : g (start + byteSize p.text) = g start + byteSize q.text :=
    carrying_chunkPart.carries hitem
  match p, q, hitem with
  | .separator t, .separator u, _ =>
      refine .cons ⟨rfl, ?_, rfl⟩ .nil
      exact congrArg (Cell.mk .separator (g start) · (some 0) []) hend.symm
  | .form f, .form f', hitem =>
      have hplaced : List.Forall₂ (Placed.Carried g (FormPart.Carried g))
          (Form.placed ⟨i, j, start, f⟩) (Form.placed ⟨i, j, g start, f'⟩) :=
        Siblings.arrange carrying_formPart hitem
      refine .cons ⟨rfl, ?_, rfl⟩ ?_
      · show Cell.mk .form (g start) (g start + byteSize f'.text) (some 0)
            ((Form.placed ⟨i, j, g start, f'⟩).map Placed.id)
          = ⟨.form, g start, g (start + byteSize f.text), some 0,
              (Form.placed ⟨i, j, start, f⟩).map Placed.id⟩
        rw [map_id_eq_of_forall₂ hplaced]
        exact congrArg (Cell.mk _ _ · _ _) hend.symm
      · have hid : (Placed.mk i j (g start) f').id = (Placed.mk i j start f).id := rfl
        exact List.rel_flatMap hplaced fun _ _ hp => forall₂_nodes_formPart hid hp

lemma forall₂_nodes {c d : Chunk} (hzero : g 0 = 0)
    (h : Siblings (ChunkPart.Carried g) 0 c.parts d.parts) :
    List.Forall₂ (Node.Carried g) c.nodes d.nodes := by
  have hplaced : List.Forall₂ (Placed.Carried g (ChunkPart.Carried g)) c.placed d.placed := by
    have harrange : List.Forall₂ _ (arrange 1 0 0 c.parts) (arrange 1 0 (g 0) d.parts) :=
      Siblings.arrange carrying_chunkPart h
    rwa [hzero] at harrange
  have hend : g (0 + byteSize c.text) = 0 + byteSize d.text := by
    have hcarries := Siblings.carries carrying_chunkPart h
    rwa [hzero] at hcarries
  refine .cons ⟨rfl, ?_, rfl⟩ ?_
  · show Cell.mk .chunk 0 (0 + byteSize d.text) none (d.placed.map Placed.id)
      = ⟨.chunk, g 0, g (0 + byteSize c.text), none, c.placed.map Placed.id⟩
    rw [hzero, hend, map_id_eq_of_forall₂ hplaced]
  · exact List.rel_flatMap hplaced fun _ _ hp => forall₂_nodes_chunkPart hp

/-- **The nodes of two lines of one shape agree but for their spans**, and these are taken to each
other with the ends of the lexemes. -/
theorem forall₂_nodes_parse {line line' : List Char} (hzero : g 0 = 0)
    (h : Siblings (Lexeme.Carried g) 0 (lex line) (lex line')) :
    List.Forall₂ (Node.Carried g) (parse line).nodes (parse line').nodes :=
  forall₂_nodes hzero (siblings_parts_ofLexemes h)

end LineShell
