import LineShell.Proofs.Grammar
import Mathlib.Data.List.Forall2

/-!
# The grammar is unambiguous

A table that keeps to the grammar of a line is read back as a tree: the walk through the table
meets the nodes in the order of their numbers, so the nodes inside a node are the next ones, and
each level of the tree is read off one level of the table.  The tree is canonical and has the text
of the line, and there is only one such tree.

* `Node.InTable` — a node and all inside it stand in a table where their numbers say.
* `ReadsAs`, `exists_arrange` — a part read off a node, and parts read off nodes side by side.
* **`grammatical_iff`** — the table of a line is the only one that keeps to the grammar.
-/

namespace LineShell

/-! ## Nodes in a table -/

/-- A node and all nodes inside it stand in a table where their numbers say. -/
def Node.InTable (t : List Cell) (m : Node) : Prop :=
  ∀ n ∈ m.subtree, t[n.id]? = some n.cell

lemma Node.inTable_iff {t : List Cell} {m : Node} :
    m.InTable t ↔ t[m.id]? = some m.cell ∧ ∀ n ∈ m.parts, n.InTable t := by
  simp only [InTable]
  rw [subtree_eq, List.forall_mem_cons]
  refine and_congr_right fun _ => ⟨?_, ?_⟩
  · intro h n hn x hx
    exact h x (List.mem_flatMap.2 ⟨n, hn, hx⟩)
  · intro h x hx
    obtain ⟨n, hn, hx⟩ := List.mem_flatMap.1 hx
    exact h n hn x hx

lemma Node.inTable_of_getElem? {t : List Cell} {m : Node} {n : Cell} (hn : t[m.id]? = some n)
    (hkind : n.kind = m.kind) (hstart : n.start = m.start) (hstop : n.stop = m.stop)
    (hparent : n.parent = m.parent) (hchildren : n.children = m.children)
    (hparts : ∀ x ∈ m.parts, x.InTable t) : m.InTable t := by
  obtain ⟨kind, start, stop, parent, children⟩ := n
  subst hkind hstart hstop hparent hchildren
  exact inTable_iff.2 ⟨hn, hparts⟩

/-- A table as long as a tree, with all its nodes in place, is the table of the tree. -/
lemma eq_cells_of_inTable {t : List Cell} {c : Chunk} (h : (Node.chunk c).InTable t)
    (hlength : c.nodes.length = t.length) : t = c.cells := by
  refine List.ext_getElem? fun i => ?_
  rw [Chunk.cells, List.getElem?_map]
  cases hn : c.nodes[i]? with
  | none =>
      have hi := List.getElem?_eq_none_iff.1 hn
      exact List.getElem?_eq_none (by omega)
  | some n =>
      have hcell := h n (List.mem_of_getElem? hn)
      rwa [Chunk.id_of_getElem?_nodes hn] at hcell

/-! ## The walk -/

lemma Walk.exists_eq_cons {t : List Cell} {i : Nat} {w : List Nat} (h : Walk t i w) :
    ∃ n v, t[i]? = some n ∧ w = i :: v ∧ WalkAll t n.children v := by
  cases h with
  | node hn hv => exact ⟨_, _, hn, rfl, hv⟩

lemma WalkAll.exists_eq_append {t : List Cell} {j : Nat} {js w : List Nat}
    (h : WalkAll t (j :: js) w) : ∃ u v, w = u ++ v ∧ Walk t j u ∧ WalkAll t js v := by
  cases h with
  | cons hj hjs => exact ⟨_, _, rfl, hj, hjs⟩

/-- Where numbers run on, those inside a node come right after its own. -/
lemma Walk.exists_children {t : List Cell} {i count : Nat}
    (h : Walk t i (List.range' i count)) :
    ∃ n m, t[i]? = some n ∧ count = m + 1 ∧ WalkAll t n.children (List.range' (i + 1) m) := by
  obtain ⟨n, v, hn, hw, hv⟩ := h.exists_eq_cons
  cases count with
  | zero => exact absurd hw (by simp)
  | succ m =>
      rw [List.range'_succ] at hw
      obtain ⟨-, rfl⟩ := List.cons.inj hw
      exact ⟨n, m, hn, rfl, hv⟩

/-- Where numbers run on, the first of several nodes takes the first of them. -/
lemma WalkAll.exists_split {t : List Cell} {j id m : Nat} {js : List Nat}
    (h : WalkAll t (j :: js) (List.range' id m)) :
    ∃ k, k ≤ m ∧ j = id ∧ Walk t id (List.range' id k) ∧
      WalkAll t js (List.range' (id + k) (m - k)) := by
  obtain ⟨u, v, hw, hj, hjs⟩ := h.exists_eq_append
  obtain ⟨k, hk, rfl, rfl⟩ := List.range'_eq_append_iff.1 hw
  rw [Nat.mul_one] at hjs
  obtain ⟨_, v, _, hcons, _⟩ := hj.exists_eq_cons
  obtain rfl : j = id := by
    cases k with
    | zero => exact absurd hcons (by simp)
    | succ k => exact (List.cons.inj (List.range'_succ.symm.trans hcons)).1.symm
  exact ⟨k, hk, rfl, hj, hjs⟩

/-! ## Reading a level -/

section arrange

variable {α : Type} [Piece α] {line : List Char} {t : List Cell} {lexemes : α → List Lexeme}
  {stands : Placed α → Prop} {good : Cell → α → Prop}

/-- A part read off a node of a table: it takes the place of the node, its text is what the node
covers, and its lexemes stand there. -/
structure ReadsAs (line : List Char) (lexemes : α → List Lexeme) (stands : Placed α → Prop)
    (good : Cell → α → Prop) (i index count : Nat) (n : Cell) (a : α) : Prop where
  stands : stands ⟨i, index, n.start, a⟩
  good : good n a
  stop : n.stop = n.start + byteSize (Piece.text a)
  count : Piece.count a = count
  row : Lexeme.RowAt line n.start (lexemes a)

/-- Parts read off nodes side by side. -/
structure ReadsAll (line : List Char) (lexemes : α → List Lexeme) (stands : Placed α → Prop)
    (good : Cell → α → Prop) (id index m start stop : Nat) (js : List Nat) (ns : List Cell)
    (as : List α) : Prop where
  stands : ∀ p ∈ arrange id index start as, stands p
  good : List.Forall₂ good ns as
  ids : (arrange id index start as).map Placed.id = js
  stop : stop = start + byteSize (as.flatMap Piece.text)
  count : Piece.total as = m
  row : ns ≠ [] ∨ Lexeme.RowAt line start [] → Lexeme.RowAt line start (as.flatMap lexemes)

/-- If each of the nodes side by side can be read, all of them can. -/
lemma exists_readsAll (index : Nat)
    (hlexemes : ∀ a, (lexemes a).flatMap Lexeme.text = Piece.text a)
    {js : List Nat} {ns : List Cell} {id m start stop : Nat}
    (hone : ∀ i ∈ js, ∀ n ∈ ns, ∀ index count, t[i]? = some n → Walk t i (List.range' i count) →
      ∃ a, ReadsAs line lexemes stands good i index count n a)
    (hjs : js.map (t[·]?) = ns.map some) (htiles : Tiles start ns stop)
    (hwalk : WalkAll t js (List.range' id m)) :
    ∃ as, ReadsAll line lexemes stands good id index m start stop js ns as := by
  induction js generalizing ns id index m start with
  | nil =>
      obtain rfl : ns = [] := by simpa using hjs.symm
      generalize hw : List.range' id m = w at hwalk
      cases hwalk with
      | nil =>
          obtain rfl : m = 0 := by simpa using hw
          obtain rfl : start = stop := htiles
          refine ⟨[], by simp [arrange], .nil, rfl, rfl, rfl, ?_⟩
          intro h
          exact h.resolve_left fun hne => hne rfl
  | cons j js ih =>
      cases ns with
      | nil => exact absurd hjs (by simp)
      | cons n ns =>
          obtain ⟨hn, hjs⟩ := List.cons.inj hjs
          obtain ⟨rfl, htiles⟩ := htiles
          -- the first node has the first `k` numbers, and the others go on from there
          obtain ⟨k, hk, rfl, hj, hwalk⟩ := hwalk.exists_split
          obtain ⟨a, ha⟩ := hone j (by simp) n (by simp) index k hn hj
          have hone' : ∀ i ∈ js, ∀ n ∈ ns, ∀ index count, t[i]? = some n →
              Walk t i (List.range' i count) →
              ∃ a, ReadsAs line lexemes stands good i index count n a :=
            fun i hi m hm => hone i (List.mem_cons_of_mem _ hi) m (List.mem_cons_of_mem _ hm)
          obtain ⟨as, has⟩ := ih (index + 1) hone' hjs htiles hwalk
          have hrow := Lexeme.rowAt_append_iff.1 ((List.append_nil (lexemes a)).symm ▸ ha.row)
          rw [hlexemes, ← ha.stop] at hrow
          have hids := has.ids
          have hstands := has.stands
          rw [← ha.count] at hids hstands
          refine ⟨a :: as, ?_, .cons ha.good has.good, ?_, ?_, ?_, ?_⟩
          · intro p hp
            rw [arrange, ← ha.stop] at hp
            rcases List.mem_cons.1 hp with rfl | hp
            · exact ha.stands
            · exact hstands p hp
          · rw [arrange, ← ha.stop, List.map_cons, hids]
          · rw [has.stop, ha.stop, List.flatMap_cons, byteSize_append]
            omega
          · rw [total_cons, has.count, ha.count]
            omega
          · intro _
            rw [List.flatMap_cons]
            refine Lexeme.rowAt_append_iff.2 ⟨ha.row, ?_⟩
            rw [hlexemes, ← ha.stop]
            exact has.row (.inr hrow.2)

end arrange

lemma exists_of_forall₂ {α β : Type} {R : α → β → Prop} {as : List α} {bs : List β}
    (h : List.Forall₂ R as bs) {b : β} (hb : b ∈ bs) : ∃ a ∈ as, R a b := by
  induction h with
  | nil => exact absurd hb (by simp)
  | cons hab _ ih =>
      rcases List.mem_cons.1 hb with rfl | hb
      · exact ⟨_, List.mem_cons_self, hab⟩
      · obtain ⟨a, ha, hR⟩ := ih hb
        exact ⟨a, List.mem_cons_of_mem _ ha, hR⟩

lemma isChain_of_forall₂ {α β : Type} {R : α → β → Prop} {S : α → α → Prop} {T : β → β → Prop}
    (hstep : ∀ a a' b b', R a b → R a' b' → S a a' → T b b') :
    ∀ {as : List α} {bs : List β}, List.Forall₂ R as bs → as.IsChain S → bs.IsChain T
  | _, _, .nil, _ => List.IsChain.nil
  | _, _, .cons _ .nil, _ => List.isChain_singleton _
  | _, _, .cons hab (.cons hab' h), hS => by
      obtain ⟨hS, hS'⟩ := List.isChain_cons_cons.1 hS
      refine List.isChain_cons_cons.2 ⟨hstep _ _ _ _ hab hab' hS, ?_⟩
      exact isChain_of_forall₂ hstep (.cons hab' h) hS'

/-! ## The levels of a tree -/

/-- A segment and its node stand in a table, whatever form the word belongs to. -/
def SegmentInTable (t : List Cell) (parent : Nat) (p : Placed Primary) : Prop :=
  ∀ (f : Placed Form) (w : Placed Compound), w.id = parent → (Node.primary f w p).InTable t

/-- A part of a form and its nodes stand in a table, whatever else the form holds. -/
def FormPartInTable (t : List Cell) (parent : Nat) (p : Placed FormPart) : Prop :=
  ∀ f : Placed Form, f.id = parent → (Node.formPart f p).InTable t

/-- What a part of a form takes over from its node. -/
structure FormPart.Fits (n : Cell) (p : FormPart) : Prop where
  kind : n.kind = p.kind
  word : ∀ w, p = .word w → w.primaries ≠ []

/-- What a part of a chunk takes over from its node. -/
structure ChunkPart.Fits (line : List Char) (n : Cell) (p : ChunkPart) : Prop where
  kind : n.kind = p.kind
  form : ∀ f, p = .form f → f.WellFormed
  terminator : n.kind = .separator → n.IsTerminator line → p.IsTerminator

namespace Grammatical

variable {line : List Char} {t : List Cell} {i index count parent : Nat} {n : Cell}

/-- The nodes inside a node of a table, as the grammar and the numbering have them. -/
lemma exists_parts (h : Grammatical line t) (hn : t[i]? = some n)
    (hwalk : Walk t i (List.range' i count)) :
    ∃ (parts : List Cell) (m : Nat), count = m + 1 ∧
      n.children.map (t[·]?) = parts.map some ∧ n.Production line parts ∧
      (parts ≠ [] → Tiles n.start parts n.stop) ∧
      WalkAll t n.children (List.range' (i + 1) m) ∧ ∀ p ∈ parts, p.parent = some i := by
  obtain ⟨n', m, hn', hcount, hwalk⟩ := hwalk.exists_children
  obtain rfl : n = n' := Option.some.inj (hn.symm.trans hn')
  obtain ⟨parts, hparts, hproduction⟩ := h.production n (List.mem_of_getElem? hn)
  refine ⟨parts, m, hcount, hparts, hproduction, ?_, hwalk, ?_⟩
  · intro hne
    have hchildren : n.children ≠ [] := by
      intro hnil
      rw [hnil] at hparts
      exact hne (by simpa using hparts.symm)
    obtain ⟨ns, hns, htiles⟩ := h.tree.tiled n (List.mem_of_getElem? hn) hchildren
    have hsome : ns.map some = parts.map some := hns.symm.trans hparts
    obtain rfl := List.map_injective_iff.2 (fun _ _ => Option.some.inj) hsome
    exact htiles
  · intro p hp
    have hmem : some p ∈ n.children.map (t[·]?) := by
      rw [hparts]
      exact List.mem_map_of_mem hp
    obtain ⟨j, hj, hjp⟩ := List.mem_map.1 hmem
    obtain ⟨q, hq, hparent⟩ := h.tree.child i n hn j hj
    obtain rfl : q = p := Option.some.inj (hq.symm.trans hjp)
    exact hparent

/-- A node without parts is alone on its walk. -/
lemma exists_leaf (h : Grammatical line t) (hn : t[i]? = some n)
    (hwalk : Walk t i (List.range' i count))
    (hkind : n.kind = .separator ∨ ∃ k, n.kind = .primary k) :
    count = 1 ∧ n.children = [] ∧ n.Production line [] := by
  obtain ⟨parts, m, rfl, hparts, hproduction, -, hwalk, -⟩ := h.exists_parts hn hwalk
  obtain rfl : parts = [] := by
    rcases hkind with hk | ⟨k, hk⟩
    · rw [Cell.Production, hk] at hproduction
      exact hproduction.1
    · rw [Cell.Production, hk] at hproduction
      exact hproduction.1
  have hchildren : n.children = [] := by simpa using hparts
  refine ⟨?_, hchildren, hproduction⟩
  rw [hchildren] at hwalk
  generalize hw : List.range' (i + 1) m = w at hwalk
  cases hwalk with
  | nil =>
      obtain rfl : m = 0 := by simpa using hw
      rfl

lemma exists_primary (h : Grammatical line t) (hn : t[i]? = some n)
    (hwalk : Walk t i (List.range' i count)) {k : PrimaryKind} (hkind : n.kind = .primary k)
    (hparent : n.parent = some parent) :
    ∃ p, ReadsAs line (fun p => [.primary p]) (SegmentInTable t parent) (fun _ _ => True)
      i index count n p := by
  obtain ⟨rfl, hchildren, hproduction⟩ := h.exists_leaf hn hwalk (.inr ⟨k, hkind⟩)
  rw [Cell.Production, hkind] at hproduction
  obtain ⟨-, before, p, after, hcovers, rfl, hmunched⟩ := hproduction
  refine ⟨p, ?_, trivial, hcovers.stop, rfl, before, after, ?_, hcovers.start, ?_⟩
  · rintro f w rfl
    refine Node.inTable_of_getElem? hn hkind rfl hcovers.stop hparent hchildren ?_
    exact fun x hx => absurd hx (by simp [Node.parts])
  · simpa [Lexeme.text] using hcovers.line
  · refine ⟨?_, trivial⟩
    rwa [List.flatMap_nil, List.nil_append]

lemma exists_word (h : Grammatical line t) (hn : t[i]? = some n)
    (hwalk : Walk t i (List.range' i count)) (hkind : n.kind = .compound)
    (hparent : n.parent = some parent) :
    ∃ p, ReadsAs line FormPart.lexemes (FormPartInTable t parent) FormPart.Fits
      i index count n p := by
  obtain ⟨parts, m, rfl, hparts, hproduction, htiles, hwalk, hparents⟩ := h.exists_parts hn hwalk
  rw [Cell.Production, hkind] at hproduction
  obtain ⟨hne, hkinds, -⟩ := hproduction
  have hone : ∀ j ∈ n.children, ∀ x ∈ parts, ∀ index count, t[j]? = some x →
      Walk t j (List.range' j count) → ∃ p, ReadsAs line (fun p => [.primary p])
        (SegmentInTable t i) (fun _ _ => True) j index count x p := by
    intro j _ x hx index count hj hw
    obtain ⟨k, hk⟩ := hkinds x hx
    exact h.exists_primary hj hw hk (hparents x hx)
  obtain ⟨ps, hps⟩ := exists_readsAll 0
    (fun p => List.flatMap_singleton _ _) hone hparts (htiles hne) hwalk
  have hpsne : ps ≠ [] := by
    rintro rfl
    exact hne (List.forall₂_nil_right_iff.1 hps.good)
  refine ⟨.word ⟨ps⟩, ?_, ⟨hkind, ?_⟩, hps.stop, ?_, ?_⟩
  · rintro f rfl
    refine Node.inTable_of_getElem? hn hkind rfl hps.stop hparent hps.ids.symm ?_
    intro x hx
    obtain ⟨p, hp, rfl⟩ := List.mem_map.1 hx
    exact hps.stands p hp f _ rfl
  · intro w hw
    obtain rfl := FormPart.word.inj hw
    exact hpsne
  · rw [Node.count_word, hps.count]
  · have hrow := hps.row (.inl hne)
    rwa [← List.map_eq_flatMap] at hrow

lemma exists_space (h : Grammatical line t) (hn : t[i]? = some n)
    (hwalk : Walk t i (List.range' i count)) (hkind : n.kind = .separator)
    (hparent : n.parent = some parent) (hblanks : n.IsBlanks line) :
    ∃ p, ReadsAs line FormPart.lexemes (FormPartInTable t parent) FormPart.Fits
      i index count n p := by
  obtain ⟨rfl, hchildren, -⟩ := h.exists_leaf hn hwalk (.inl hkind)
  obtain ⟨before, u, after, hcovers, hne, hall, -, hstops⟩ := hblanks
  refine ⟨.space u, ?_, ⟨hkind, fun w hw => absurd hw (by simp)⟩, hcovers.stop, rfl,
    before, after, ?_, hcovers.start, ?_⟩
  · rintro f rfl
    refine Node.inTable_of_getElem? hn hkind rfl hcovers.stop hparent hchildren ?_
    exact fun x hx => absurd hx (by simp [Node.parts])
  · simpa [FormPart.lexemes, Lexeme.text] using hcovers.line
  · exact ⟨⟨hne, hall, by simpa using hstops⟩, trivial⟩

lemma exists_form (h : Grammatical line t) (hn : t[i]? = some n)
    (hwalk : Walk t i (List.range' i count)) (hkind : n.kind = .form)
    (hparent : n.parent = some 0) :
    ∃ p, ReadsAs line ChunkPart.lexemes (fun q => (Node.part q).InTable t) (ChunkPart.Fits line)
      i index count n p := by
  obtain ⟨parts, m, rfl, hparts, hproduction, htiles, hwalk, hparents⟩ := h.exists_parts hn hwalk
  rw [Cell.Production, hkind] at hproduction
  obtain ⟨hne, halternates, hblanks⟩ := hproduction
  have hone : ∀ j ∈ n.children, ∀ x ∈ parts, ∀ index count, t[j]? = some x →
      Walk t j (List.range' j count) →
      ∃ p, ReadsAs line FormPart.lexemes (FormPartInTable t i) FormPart.Fits j index count x p := by
    intro j _ x hx index count hj hw
    rcases halternates.eq_or_eq x.kind (List.mem_map_of_mem hx) with hk | hk
    · exact h.exists_word hj hw hk (hparents x hx)
    · exact h.exists_space hj hw hk (hparents x hx) (hblanks x hx hk)
  obtain ⟨ps, hps⟩ := exists_readsAll 0 FormPart.flatMap_text_lexemes hone hparts
    (htiles hne) hwalk
  have hkinds : parts.map Cell.kind = ps.map FormPart.kind := by
    rw [← List.forall₂_eq_eq_eq, List.forall₂_map_left_iff, List.forall₂_map_right_iff]
    exact hps.good.imp fun _ _ hfits => hfits.kind
  have hform : Form.WellFormed ⟨ps⟩ := by
    refine ⟨?_, hkinds ▸ halternates, ?_⟩
    · rintro rfl
      exact hne (List.forall₂_nil_right_iff.1 hps.good)
    · intro w hw
      obtain ⟨x, -, hfits⟩ := exists_of_forall₂ hps.good hw
      exact hfits.word w rfl
  refine ⟨.form ⟨ps⟩, ?_, ⟨hkind, ?_, ?_⟩, hps.stop, ?_, hps.row (.inl hne)⟩
  · refine Node.inTable_of_getElem? hn hkind rfl hps.stop hparent hps.ids.symm ?_
    intro x hx
    obtain ⟨p, hp, rfl⟩ := List.mem_map.1 hx
    exact hps.stands p hp _ rfl
  · intro f hf
    obtain rfl := ChunkPart.form.inj hf
    exact hform
  · intro hk
    exact absurd (hkind.symm.trans hk) (by decide)
  · rw [Node.count_form, hps.count]

lemma exists_separator (h : Grammatical line t) (hn : t[i]? = some n)
    (hwalk : Walk t i (List.range' i count)) (hkind : n.kind = .separator)
    (hparent : n.parent = some 0) :
    ∃ p, ReadsAs line ChunkPart.lexemes (fun q => (Node.part q).InTable t) (ChunkPart.Fits line)
      i index count n p := by
  obtain ⟨rfl, hchildren, hproduction⟩ := h.exists_leaf hn hwalk (.inl hkind)
  rw [Cell.Production, hkind] at hproduction
  have hreads : ∀ before u after, n.Covers line before u after →
      (Lexeme.ofSeparator u).Munched after →
      (n.IsTerminator line → (ChunkPart.separator u).IsTerminator) →
      ReadsAs line ChunkPart.lexemes (fun q => (Node.part q).InTable t) (ChunkPart.Fits line)
        i index 1 n (.separator u) := by
    intro before u after hcovers hmunched hterminator
    refine ⟨?_, ⟨hkind, fun f hf => absurd hf (by simp), fun _ => hterminator⟩, hcovers.stop, rfl,
      before, after, ?_, hcovers.start, ?_⟩
    · refine Node.inTable_of_getElem? hn hkind rfl hcovers.stop hparent hchildren ?_
      exact fun x hx => absurd hx (by simp [Node.parts])
    · rw [ChunkPart.flatMap_text_lexemes]
      exact hcovers.line
    · exact ⟨hmunched, trivial⟩
  -- a node that is a terminator has to be read as one: the statement before it needs it
  by_cases hterminator : n.IsTerminator line
  · obtain ⟨before, c, after, hcovers, hc⟩ := hterminator
    refine ⟨_, hreads before [c] after hcovers ?_ fun _ => ⟨c, hc, rfl⟩⟩
    rw [Lexeme.ofSeparator_terminator hc]
    exact hc
  · obtain ⟨before, u, after, hcovers, hne, hall, -, hstops⟩ :=
      hproduction.2.resolve_left hterminator
    refine ⟨_, hreads before u after hcovers ?_ fun hnot => absurd hnot hterminator⟩
    rw [Lexeme.ofSeparator_space hall]
    exact ⟨hne, hall, hstops⟩

/-- A tree is read off a table that keeps to the grammar. -/
lemma exists_chunk (h : Grammatical line t) :
    ∃ c : Chunk, t = c.cells ∧ c.text = line ∧ c.Canonical := by
  obtain ⟨r, hr, hkind, hstart, hstop, hparent⟩ := h.tree.root
  have hwalk : Walk t 0 (List.range' 0 t.length) := by
    rw [← List.range_eq_range']
    exact h.tree.preorder
  obtain ⟨parts, m, hlength, hparts, hproduction, -, hwalk, hparents⟩ := h.exists_parts hr hwalk
  rw [Cell.Production, hkind] at hproduction
  obtain ⟨htiles, hkinds, hends⟩ := hproduction
  rw [hstart, hstop] at htiles
  have hone : ∀ j ∈ r.children, ∀ x ∈ parts, ∀ index count, t[j]? = some x →
      Walk t j (List.range' j count) →
      ∃ p, ReadsAs line ChunkPart.lexemes (fun q => (Node.part q).InTable t)
        (ChunkPart.Fits line) j index count x p := by
    intro j _ x hx index count hj hw
    rcases hkinds x hx with hk | hk
    · exact h.exists_form hj hw hk (hparents x hx)
    · exact h.exists_separator hj hw hk (hparents x hx)
  obtain ⟨ps, hps⟩ := exists_readsAll 0 ChunkPart.flatMap_text_lexemes hone hparts
    htiles hwalk
  have hsize : r.stop = (Node.chunk ⟨ps⟩).stop := hstop.trans hps.stop
  have htable : (Node.chunk ⟨ps⟩).InTable t := by
    refine Node.inTable_of_getElem? hr hkind hstart hsize hparent hps.ids.symm ?_
    intro x hx
    obtain ⟨p, hp, rfl⟩ := List.mem_map.1 hx
    exact hps.stands p hp
  have hnodes : (Chunk.nodes ⟨ps⟩).length = t.length := by
    have hids := congrArg List.length
      (Node.map_id_subtree_of_parts (m := .chunk ⟨ps⟩) ps .part rfl Node.map_id_subtree_part)
    rw [List.length_map, List.length_range', hps.count, ← hlength] at hids
    exact hids
  -- the row begins with the line and is as long, so nothing of the line is around it
  obtain ⟨before, after, hline, hbefore, hrow⟩ := hps.row (.inr ⟨[], line, rfl, rfl, trivial⟩)
  have hlexemes : (ps.flatMap ChunkPart.lexemes).flatMap Lexeme.text = (Chunk.mk ps).text :=
    Chunk.flatMap_text_lexemes ⟨ps⟩
  rw [hlexemes] at hline
  have hbytes : byteSize line = byteSize (Chunk.mk ps).text := hps.stop.trans (Nat.zero_add _)
  rw [hline, byteSize_append, byteSize_append] at hbytes
  obtain rfl : before = [] := byteSize_eq_zero_iff.1 hbefore
  obtain rfl : after = [] := byteSize_eq_zero_iff.1 (by omega)
  refine ⟨⟨ps⟩, eq_cells_of_inTable htable hnodes, ?_, ?_, ?_, hrow⟩
  · rw [hline, List.append_nil, List.nil_append]
  · intro f hf
    obtain ⟨x, -, hfits⟩ := exists_of_forall₂ hps.good hf
    exact hfits.form f rfl
  · refine isChain_of_forall₂ ?_ hps.good hends
    intro x y p q hx hy hxy hp
    obtain ⟨hsep, hterminator⟩ := hxy (hx.kind.trans hp)
    exact hy.terminator hsep hterminator

end Grammatical

/-- **The table of a line is the only one that keeps to the grammar.** -/
theorem grammatical_iff {line : List Char} {t : List Cell} :
    Grammatical line t ↔ t = (parse line).cells := by
  constructor
  · intro h
    obtain ⟨c, rfl, htext, hcanonical⟩ := h.exists_chunk
    rw [parse_eq_iff.2 ⟨htext, hcanonical⟩]
  · rintro rfl
    exact grammatical_cells line

end LineShell
