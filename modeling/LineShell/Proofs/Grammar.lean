import LineShell.Proofs.Lossless

/-!
# The grammar of a line

The grammar is a property of tables of nodes.  Each kind of node has a *production*: the parts it
may have, and how the text it covers ends.  Maximal munch is said on both sides, so a run of blanks
is all the blanks there are, and a word is no part of a longer one.

* `Cell.Covers`, `Isolated` — the text that a node covers, and what is around it.
* `Cell.IsTerminator`, `Cell.IsBlanks`, `Cell.IsWord`, `Cell.IsSegment` — the texts of the grammar.
* `Cell.Production`, **`Grammatical`** — what the grammar asks of a node, and of a table.
* **`grammatical_cells`** — the table of a parsed line keeps to the grammar.
-/

namespace LineShell

/-! ## Texts -/

/-- A node covers `text`, between `before` and `after` on the line. -/
structure Cell.Covers (n : Cell) (line before text after : List Char) : Prop where
  line : line = before ++ text ++ after
  start : byteSize before = n.start
  stop : n.stop = n.start + byteSize text

/-- No character of a class stands right before a text or right behind it. -/
def Isolated (p : Char → Bool) (before after : List Char) : Prop :=
  Stops p before.reverse ∧ Stops p after

/-- The characters that go on with a word: all but blanks and terminators. -/
def isWordChar (c : Char) : Bool :=
  !(isSpace c || isTerminator c)

namespace Cell

/-- One terminator. -/
def IsTerminator (line : List Char) (n : Cell) : Prop :=
  ∃ before c after, n.Covers line before [c] after ∧ LineShell.isTerminator c = true

/-- Blanks, and all that stand there. -/
def IsBlanks (line : List Char) (n : Cell) : Prop :=
  ∃ before text after, n.Covers line before text after ∧ text ≠ [] ∧
    (∀ c ∈ text, isSpace c = true) ∧ Isolated isSpace before after

/-- A text that is not part of a longer word. -/
def IsWord (line : List Char) (n : Cell) : Prop :=
  ∃ before text after, n.Covers line before text after ∧ Isolated isWordChar before after

/-- A segment of a kind, ended as the kind is. -/
def IsSegment (line : List Char) (k : PrimaryKind) (n : Cell) : Prop :=
  ∃ (before : List Char) (p : Primary) (after : List Char),
    n.Covers line before p.text after ∧ p.kind = k ∧ p.Munched after

/-- What the grammar asks of a node with these parts. -/
def Production (line : List Char) (n : Cell) (parts : List Cell) : Prop :=
  match n.kind with
  | .chunk =>
    Tiles n.start parts n.stop ∧ (∀ p ∈ parts, p.kind = .form ∨ p.kind = .separator) ∧
      parts.IsChain fun p q => p.kind = .form → q.kind = .separator ∧ q.IsTerminator line
  | .form =>
    parts ≠ [] ∧ Alternates .compound .separator (parts.map kind) ∧
      ∀ p ∈ parts, p.kind = .separator → p.IsBlanks line
  | .compound => parts ≠ [] ∧ (∀ p ∈ parts, ∃ k, p.kind = .primary k) ∧ n.IsWord line
  | .separator => parts = [] ∧ (n.IsTerminator line ∨ n.IsBlanks line)
  | .primary k => parts = [] ∧ n.IsSegment line k

end Cell

/-- A table that is a tree over a line and keeps to the grammar at every node. -/
structure Grammatical (line : List Char) (t : List Cell) : Prop where
  tree : IsTree line t
  production : ∀ n ∈ t, ∃ parts : List Cell,
    n.children.map (t[·]?) = parts.map some ∧ n.Production line parts

/-! ## What stands around a lexeme -/

lemma isWordChar_iff {c : Char} :
    isWordChar c = true ↔ isSpace c = false ∧ isTerminator c = false := by
  simp [isWordChar]

lemma isWordChar_of_isSpace {c : Char} (h : isSpace c = true) : isWordChar c = false := by
  simp [isWordChar, h]

lemma isWordChar_of_isTerminator {c : Char} (h : isTerminator c = true) :
    isWordChar c = false := by
  simp [isWordChar, h]

lemma stops_append {p : Char → Bool} {t rest : List Char} (hne : t ≠ [])
    (h : ∀ c ∈ t, p c = false) : Stops p (t ++ rest) := by
  obtain ⟨c, t, rfl⟩ := List.exists_cons_of_ne_nil hne
  exact stops_cons_iff.2 (h c List.mem_cons_self)

lemma stops_reverse_append {p : Char → Bool} {t rest : List Char} (hne : t ≠ [])
    (h : ∀ c ∈ t, p c = false) : Stops p (rest ++ t).reverse := by
  rw [List.reverse_append]
  refine stops_append (by simpa using hne) fun c hc => h c (List.mem_reverse.1 hc)

lemma isSpace_of_isVariableChar {c : Char} (h : isVariableChar c = true) : isSpace c = false := by
  by_contra hs
  rcases isSpace_iff.1 (by simpa using hs) with rfl | rfl | rfl <;> exact absurd h (by decide)

lemma isWordChar_of_isVariableChar {c : Char} (h : isVariableChar c = true) :
    isWordChar c = true := by
  by_contra hword
  have hend : isSpace c = true ∨ isTerminator c = true := by
    simpa [isWordChar, or_iff_not_imp_left] using hword
  rcases hend with hspace | hterminator
  · exact absurd (isSpace_of_isVariableChar h) (by simp [hspace])
  · rcases isTerminator_iff.1 hterminator with rfl | rfl <;> exact absurd h (by decide)

lemma isWordChar_of_isBareChar {c : Char} (h : isBareChar c = true) : isWordChar c = true := by
  obtain ⟨hspace, hterminator, -⟩ := isBareChar_iff.1 h
  exact isWordChar_iff.2 ⟨hspace, hterminator⟩

/-- What goes on with no word goes on with none of its segments. -/
lemma Stops.of_isWordChar {p : Char → Bool} {rest : List Char} (h : Stops isWordChar rest)
    (hp : ∀ c, p c = true → isWordChar c = true) : Stops p rest := by
  intro c hc
  have hword := h c hc
  by_contra hchar
  simp [hp c (by simpa using hchar)] at hword

/-- A segment with something behind it does not end with a blank. -/
lemma Primary.Munched.exists_text_eq_append {p : Primary} {rest : List Char} (h : p.Munched rest)
    (hne : rest ≠ []) : ∃ cs c, p.text = cs ++ [c] ∧ isSpace c = false := by
  have hquote : ∀ q body closed e, isSpace q = false → QuoteEnds q e body closed rest →
      ∃ cs c, q :: body ++ closing q closed = cs ++ [c] ∧ isSpace c = false := by
    intro q body closed e hq hends
    cases closed with
    | true => exact ⟨q :: body, q, rfl, hq⟩
    | false => exact absurd hends.2 hne
  cases p with
  | bareword t =>
      obtain ⟨cs, c, rfl⟩ := (List.eq_nil_or_concat t).resolve_left h.1
      exact ⟨cs, c, List.concat_eq_append, (isBareChar_iff.1 (h.2.1 c (by simp))).1⟩
  | singleQuoted body closed => exact hquote _ body closed _ (by decide) h
  | doubleQuoted body closed => exact hquote _ body closed _ (by decide) h
  | reference name =>
      rcases List.eq_nil_or_concat name with rfl | ⟨cs, c, rfl⟩
      · exact ⟨[], '$', rfl, by decide⟩
      · refine ⟨'$' :: cs, c, by simp [text], ?_⟩
        exact isSpace_of_isVariableChar (h.1 c (by simp))

namespace Lexeme

lemma munched_of_mem_row {ls : List Lexeme} {rest : List Char} (h : Row ls rest) {l : Lexeme}
    (hl : l ∈ ls) : ∃ rest', l.Munched rest' := by
  obtain ⟨before, after, rfl⟩ := List.append_of_mem hl
  exact ⟨_, (row_append_iff.1 h).2.1⟩

/-- A run of blanks in a row of lexemes has no blanks around it. -/
lemma isolated_of_row {ls ms : List Lexeme} {t : List Char} (h : Row (ls ++ .space t :: ms) []) :
    Isolated isSpace (ls.flatMap text) (ms.flatMap text) := by
  obtain ⟨hls, ⟨hne, hall, hstop⟩, -⟩ := row_append_iff.1 h
  refine ⟨?_, by simpa using hstop⟩
  -- blanks before these would have taken them along, and nothing else ends with a blank
  rcases List.eq_nil_or_concat ls with rfl | ⟨ls, l, rfl⟩
  · exact stops_nil _
  · rw [List.concat_eq_append] at hls ⊢
    obtain ⟨-, hl, -⟩ := row_append_iff.1 hls
    rw [List.flatMap_append, List.flatMap_singleton]
    cases l with
    | terminator c =>
        refine stops_reverse_append (List.cons_ne_nil _ _) fun d hd => ?_
        obtain rfl : d = c := by simpa [text] using hd
        by_contra hs
        have hc := isTerminator_of_isSpace (by simpa using hs)
        rw [show isTerminator d = true from hl] at hc
        exact Bool.noConfusion hc
    | space u =>
        obtain ⟨c, t, rfl⟩ := List.exists_cons_of_ne_nil hne
        have hc : isSpace c = false := by simpa [text] using hl.2.2
        rw [hall c List.mem_cons_self] at hc
        exact Bool.noConfusion hc
    | primary p =>
        have hrest : (space t :: ms).flatMap text ++ [] ≠ [] := by
          rw [List.flatMap_cons, List.append_nil]
          exact List.append_ne_nil_of_left_ne_nil hne _
        obtain ⟨cs, c, hp, hc⟩ := Primary.Munched.exists_text_eq_append hl (by simpa using hrest)
        rw [text, hp, ← List.append_assoc]
        refine stops_reverse_append (List.cons_ne_nil _ _) fun d hd => ?_
        obtain rfl : d = c := by simpa using hd
        exact hc

end Lexeme

/-! ## What stands around a word -/

lemma Alternates.isChain {α : Type} {a b : α} (hab : a ≠ b) :
    ∀ {xs : List α}, Alternates a b xs → xs.IsChain (· ≠ ·)
  | [], _ => List.IsChain.nil
  | [_], _ => List.isChain_singleton _
  | x :: y :: xs, ⟨hx, hxs⟩ => by
      refine List.isChain_cons_cons.2 ⟨?_, hxs.isChain hab.symm⟩
      rw [hx, hxs.1]
      exact hab

lemma Alternates.eq_or_eq {α : Type} {a b : α} :
    ∀ {xs : List α}, Alternates a b xs → ∀ x ∈ xs, x = a ∨ x = b
  | [], _, x, hx => absurd hx (by simp)
  | y :: ys, ⟨hy, hys⟩, x, hx => by
      rcases List.mem_cons.1 hx with rfl | hx
      · exact .inl hy
      · exact (hys.eq_or_eq x hx).symm

namespace Chunk.Canonical

lemma blanks_of_mem {c : Chunk} (h : c.Canonical) {f : Form} (hf : .form f ∈ c.parts)
    {t : List Char} (ht : .space t ∈ f.parts) : t ≠ [] ∧ ∀ x ∈ t, isWordChar x = false := by
  have hmem : .space t ∈ c.lexemes := by
    refine List.mem_flatMap.2 ⟨_, hf, List.mem_flatMap.2 ⟨_, ht, ?_⟩⟩
    exact List.mem_singleton_self _
  obtain ⟨rest, hne, hall, -⟩ := Lexeme.munched_of_mem_row h.row hmem
  exact ⟨hne, fun x hx => isWordChar_of_isSpace (hall x hx)⟩

lemma separator_of_mem {c : Chunk} (h : c.Canonical) {t : List Char}
    (ht : .separator t ∈ c.parts) : t ≠ [] ∧ ∀ x ∈ t, isWordChar x = false := by
  have hmem : .ofSeparator t ∈ c.lexemes :=
    List.mem_flatMap.2 ⟨_, ht, List.mem_singleton_self _⟩
  obtain ⟨rest, hl⟩ := Lexeme.munched_of_mem_row h.row hmem
  rcases Lexeme.ofSeparator_cases t with ⟨c, rfl, hc, -⟩ | ht'
  · refine ⟨List.cons_ne_nil _ _, fun x hx => ?_⟩
    obtain rfl : x = c := by simpa using hx
    exact isWordChar_of_isTerminator hc
  · rw [ht'] at hl
    exact ⟨hl.1, fun x hx => isWordChar_of_isSpace (hl.2.1 x hx)⟩

/-- Nothing goes on with a word: in its form there are blanks beside it, and around the form there
are separators. -/
lemma isolated_word {c : Chunk} (h : c.Canonical) {f : Form} {w : Compound}
    {xs ys : List ChunkPart} {us vs : List FormPart} (hc : c.parts = xs ++ .form f :: ys)
    (hf : f.parts = us ++ .word w :: vs) :
    Isolated isWordChar (xs.flatMap ChunkPart.text ++ us.flatMap FormPart.text)
      (vs.flatMap FormPart.text ++ ys.flatMap ChunkPart.text) := by
  have hform : ChunkPart.form f ∈ c.parts := by simp [hc]
  have hends := h.ends
  rw [hc] at hends
  obtain ⟨-, hys, hxs⟩ := List.isChain_append.1 hends
  have hkinds := (h.forms f hform).alternates.isChain (by decide)
  rw [hf, List.map_append] at hkinds
  obtain ⟨-, hvs, hus⟩ := List.isChain_append.1 hkinds
  constructor
  -- to the left: blanks of the form, else a separator before it, else the start of the line
  · rcases List.eq_nil_or_concat us with rfl | ⟨us, u, rfl⟩
    · rcases List.eq_nil_or_concat xs with rfl | ⟨xs, x, rfl⟩
      · exact stops_nil _
      · rw [List.concat_eq_append] at hc hxs ⊢
        cases x with
        | form g =>
            obtain ⟨d, -, hd⟩ := hxs (.form g) (by simp) (.form f) (by simp) rfl
            exact absurd hd (by simp)
        | separator t =>
            obtain ⟨hne, hall⟩ := h.separator_of_mem (t := t) (by simp [hc])
            rw [List.flatMap_nil, List.append_nil, List.flatMap_append, List.flatMap_singleton]
            exact stops_reverse_append hne hall
    · rw [List.concat_eq_append] at hf hus ⊢
      cases u with
      | word v => exact absurd rfl (hus .compound (by simp [FormPart.kind]) .compound rfl)
      | space t =>
          obtain ⟨hne, hall⟩ := h.blanks_of_mem hform (t := t) (by simp [hf])
          rw [List.flatMap_append, List.flatMap_singleton, ← List.append_assoc]
          exact stops_reverse_append hne hall
  -- to the right: blanks of the form, else the terminator after it, else the end of the line
  · cases vs with
    | nil =>
        cases ys with
        | nil => exact stops_nil _
        | cons y ys =>
            obtain ⟨d, hd, rfl⟩ := (List.isChain_cons_cons.1 hys).1 rfl
            exact stops_cons_iff.2 (isWordChar_of_isTerminator hd)
    | cons v vs =>
        cases v with
        | word v => exact absurd rfl (List.isChain_cons_cons.1 hvs).1
        | space t =>
            obtain ⟨hne, hall⟩ := h.blanks_of_mem hform (t := t) (by simp [hf])
            rw [List.flatMap_cons, List.append_assoc]
            exact stops_append hne hall

end Chunk.Canonical

/-! ## The productions hold -/

lemma covers_of_rowAt {line : List Char} {n : Node}
    (h : Lexeme.RowAt line n.start n.lexemes) :
    ∃ before after, n.cell.Covers line before n.text after ∧ Lexeme.Row n.lexemes after := by
  obtain ⟨before, after, hline, hstart, hrow⟩ := h
  rw [Node.flatMap_text_lexemes] at hline
  exact ⟨before, after, ⟨hline, hstart, rfl⟩, hrow⟩

/-- A node that is a run of blanks is all the blanks there are. -/
lemma isBlanks_of_lexemes {line t : List Char} {n : Node} (h : n ∈ (parse line).nodes)
    (hn : n.lexemes = [.space t]) : n.cell.IsBlanks line := by
  obtain ⟨ls, ms, hall, hstart⟩ := Chunk.stretchAt_of_mem_nodes n h
  have ht : n.text = t := by
    rw [← n.flatMap_text_lexemes, hn]
    exact List.flatMap_singleton _ _
  have hrow := (parse_canonical line).row
  rw [hn, List.append_assoc, List.singleton_append] at hall
  rw [hall] at hrow
  obtain ⟨-, ⟨hne, hblank, -⟩, -⟩ := Lexeme.row_append_iff.1 hrow
  refine ⟨_, t, _, ⟨?_, hstart, ?_⟩, hne, hblank, Lexeme.isolated_of_row hrow⟩
  · rw [← parse_text line, ← Chunk.flatMap_text_lexemes, hall, List.flatMap_append,
      List.flatMap_cons, Lexeme.text, List.append_assoc]
  · show n.stop = _
    rw [Node.stop, ht]
    rfl

/-- A separator between statements is one terminator or all the blanks there are. -/
lemma isTerminator_or_isBlanks {line t : List Char} {n : Node} (h : n ∈ (parse line).nodes)
    (hn : n.lexemes = [.ofSeparator t]) : n.cell.IsTerminator line ∨ n.cell.IsBlanks line := by
  rcases Lexeme.ofSeparator_cases t with ⟨c, rfl, hc, ht⟩ | ht
  · obtain ⟨before, after, hcovers, -⟩ := covers_of_rowAt (rowAt_of_mem_nodes h)
    rw [← n.flatMap_text_lexemes, hn, ht] at hcovers
    exact .inl ⟨before, c, after, hcovers, hc⟩
  · exact .inr (isBlanks_of_lexemes h (by rw [hn, ht]))

lemma production_chunk (line : List Char) :
    (Node.chunk (parse line)).cell.Production line
      ((Node.chunk (parse line)).parts.map Node.cell) := by
  have hmem : ∀ p ∈ (parse line).placed, Node.part p ∈ (parse line).nodes := fun p hp =>
    Chunk.mem_nodes_of_mem_parts (Chunk.root_mem_nodes _) (List.mem_map_of_mem hp)
  have hends := (parse_canonical line).ends
  rw [← map_item_arrange 1 0 0 (parse line).parts, List.isChain_map] at hends
  refine ⟨Node.tiles_parts_chunk _, ?_, ?_⟩
  · intro x hx
    obtain ⟨n, hn, rfl⟩ := List.mem_map.1 hx
    obtain ⟨p, -, rfl⟩ := List.mem_map.1 hn
    show (Node.part p).kind = .form ∨ (Node.part p).kind = .separator
    rw [Node.kind_part]
    cases p.item with
    | form f => exact .inl rfl
    | separator t => exact .inr rfl
  · rw [Node.parts, List.isChain_map, List.isChain_map]
    refine hends.imp_of_mem_imp fun p q hp hq hpq hkind => ?_
    have hkind : (Node.part p).kind = .form := hkind
    rw [Node.kind_part] at hkind
    obtain ⟨c, hc, hitem⟩ := hpq hkind
    have hlexemes : (Node.part q).lexemes = [.terminator c] := by
      rw [Node.lexemes, hitem, ChunkPart.lexemes, Lexeme.ofSeparator_terminator hc]
    obtain ⟨before, after, hcovers, -⟩ := covers_of_rowAt (rowAt_of_mem_nodes (hmem q hq))
    rw [← Node.flatMap_text_lexemes, hlexemes] at hcovers
    refine ⟨?_, before, c, after, hcovers, hc⟩
    show (Node.part q).kind = .separator
    rw [Node.kind_part, hitem]
    rfl

lemma production_form {line : List Char} {id index start : Nat} {f : Form}
    (h : Node.part ⟨id, index, start, .form f⟩ ∈ (parse line).nodes) :
    (Node.part ⟨id, index, start, .form f⟩).cell.Production line
      ((Node.part ⟨id, index, start, .form f⟩).parts.map Node.cell) := by
  have hf : f.WellFormed := (parse_canonical line).forms f (Chunk.holds_of_mem_nodes _ h).mem
  refine ⟨?_, ?_, ?_⟩
  · intro hnil
    have harrange := List.map_eq_nil_iff.1 (List.map_eq_nil_iff.1 hnil)
    exact hf.ne_nil (arrange_eq_nil_iff.1 harrange)
  · have hkinds : (((Form.placed ⟨id, index, start, f⟩).map
        (Node.formPart ⟨id, index, start, f⟩)).map Node.cell).map Cell.kind =
          f.parts.map FormPart.kind := by
      rw [← map_item_arrange (id + 1) 0 start f.parts, List.map_map, List.map_map, List.map_map]
      exact List.map_congr_left fun p _ => Node.kind_formPart ⟨id, index, start, f⟩ p
    rw [Node.parts, hkinds]
    exact hf.alternates
  · intro x hx hkind
    obtain ⟨n, hn, rfl⟩ := List.mem_map.1 hx
    have hmem := Chunk.mem_nodes_of_mem_parts h hn
    obtain ⟨⟨_, _, _, _ | t⟩, -, rfl⟩ := List.mem_map.1 hn
    · exact absurd hkind (by simp [Node.cell, Node.kind])
    · exact isBlanks_of_lexemes hmem rfl

lemma production_compound {line : List Char} {f : Placed Form} {id index start : Nat}
    {w : Compound} (h : Node.formPart f ⟨id, index, start, .word w⟩ ∈ (parse line).nodes) :
    (Node.formPart f ⟨id, index, start, .word w⟩).cell.Production line
      ((Node.formPart f ⟨id, index, start, .word w⟩).parts.map Node.cell) := by
  have hholds := Chunk.holds_of_mem_nodes _ h
  have hcanonical := parse_canonical line
  refine ⟨?_, ?_, ?_⟩
  · intro hnil
    have harrange := List.map_eq_nil_iff.1 (List.map_eq_nil_iff.1 hnil)
    have hne := (hcanonical.forms _ hholds.1.mem).words w hholds.2.mem
    exact hne (arrange_eq_nil_iff.1 harrange)
  · intro x hx
    obtain ⟨n, hn, rfl⟩ := List.mem_map.1 hx
    obtain ⟨p, -, rfl⟩ := List.mem_map.1 hn
    exact ⟨p.item.kind, rfl⟩
  · obtain ⟨⟨xs, ys, hc, hxs⟩, us, vs, hf, hus⟩ := hholds
    refine ⟨_, w.text, _, ⟨?_, ?_, rfl⟩, hcanonical.isolated_word hc hf⟩
    · rw [← parse_text line, Chunk.text, hc, List.flatMap_append, List.flatMap_cons]
      have htext : f.item.text =
          us.flatMap FormPart.text ++ (w.text ++ vs.flatMap FormPart.text) := by
        rw [Form.text, hf, List.flatMap_append, List.flatMap_cons]
        rfl
      show _ ++ (f.item.text ++ _) = _
      rw [htext]
      simp
    · have hxs : f.start = 0 + byteSize (xs.flatMap ChunkPart.text) := hxs
      have hus : start = f.start + byteSize (us.flatMap FormPart.text) := hus
      rw [byteSize_append]
      show _ = start
      omega

theorem production_of_mem_nodes {line : List Char} : ∀ {n : Node}, n ∈ (parse line).nodes →
    n.cell.Production line (n.parts.map Node.cell)
  | .chunk c, h => by
      obtain rfl : c = parse line := Chunk.holds_of_mem_nodes _ h
      exact production_chunk line
  | .part ⟨_, _, _, .form _⟩, h => production_form h
  | .part ⟨_, _, _, .separator _⟩, h => ⟨rfl, isTerminator_or_isBlanks h rfl⟩
  | .formPart _ ⟨_, _, _, .word _⟩, h => production_compound h
  | .formPart _ ⟨_, _, _, .space _⟩, h => ⟨rfl, .inr (isBlanks_of_lexemes h rfl)⟩
  | .primary _ _ p, h => by
      obtain ⟨before, after, hcovers, hmunched, -⟩ := covers_of_rowAt (rowAt_of_mem_nodes h)
      exact ⟨rfl, before, p.item, after, hcovers, rfl, hmunched⟩

/-- **The table of a line keeps to the grammar.** -/
theorem grammatical_cells (line : List Char) : Grammatical line (parse line).cells where
  tree := by
    have h := (parse line).isTree_cells
    rwa [parse_text] at h
  production x hx := by
    obtain ⟨n, hn, rfl⟩ := Chunk.exists_of_mem_cells hx
    exact ⟨_, Chunk.map_getElem?_children hn, production_of_mem_nodes hn⟩

end LineShell
