import LineShell.Proofs.Parts
import LineShell.Proofs.Slices

/-!
# What nodes cover

A node covers a stretch of the line, and that stretch falls into the lexemes of the node, each
ended as the grammar ends it by what follows on the line.  Parts inherit this from their node.  So
every node of a parsed line stands where it says, and the nodes without parts cover the line.

* `Lexeme.RowAt`, `Lexeme.StretchAt` — a row of lexemes at a place on a line, and in a longer row.
* **`rowAt_of_mem_nodes`** — every node stands with its lexemes where it says.
* `Chunk.Holds` — a node with the siblings that stand before and after it at each level.
* `text_ne_nil_of_mem_nodes` — no node of a line but the root is empty.
* `Node.leaves`, **`Node.tiles_leaves`** — the nodes without parts tile what their node covers.
-/

namespace LineShell

/-! ## Lexemes in their place -/

namespace Lexeme

/-- A row of lexemes that stands at a byte of a line, each lexeme ended by what follows there. -/
def RowAt (line : List Char) (start : Nat) (ls : List Lexeme) : Prop :=
  ∃ before after, line = before ++ ls.flatMap text ++ after ∧ byteSize before = start ∧
    Row ls after

lemma rowAt_append_iff {line : List Char} {start : Nat} {ls ms : List Lexeme} :
    RowAt line start (ls ++ ms) ↔
      RowAt line start ls ∧ RowAt line (start + byteSize (ls.flatMap text)) ms := by
  constructor
  · rintro ⟨before, after, hline, hstart, hrow⟩
    rw [List.flatMap_append] at hline
    obtain ⟨hls, hms⟩ := row_append_iff.1 hrow
    refine ⟨⟨before, ms.flatMap text ++ after, ?_, hstart, hls⟩,
      before ++ ls.flatMap text, after, ?_, ?_, hms⟩
    · simpa using hline
    · simpa using hline
    · rw [byteSize_append, hstart]
  · rintro ⟨⟨before, after, hline, hstart, hls⟩, before', after', hline', hstart', hms⟩
    have hcut : before ++ ls.flatMap text ++ after
        = before' ++ (ms.flatMap text ++ after') := by
      rw [← hline, hline', List.append_assoc]
    have hsize : byteSize (before ++ ls.flatMap text) = byteSize before' := by
      rw [byteSize_append, hstart, hstart']
    obtain ⟨rfl, rfl⟩ := append_inj_of_byteSize hcut hsize
    refine ⟨before, after', ?_, hstart, row_append_iff.2 ⟨hls, hms⟩⟩
    rw [hline, List.flatMap_append]
    simp

/-- A stretch of a row of lexemes that begins at a byte of what the row covers. -/
def StretchAt (all : List Lexeme) (start : Nat) (ls : List Lexeme) : Prop :=
  ∃ before after, all = before ++ ls ++ after ∧ byteSize (before.flatMap text) = start

lemma StretchAt.of_append {all ls ms : List Lexeme} {start : Nat}
    (h : StretchAt all start (ls ++ ms)) :
    StretchAt all start ls ∧ StretchAt all (start + byteSize (ls.flatMap text)) ms := by
  obtain ⟨before, after, hall, hstart⟩ := h
  refine ⟨⟨before, ms ++ after, ?_, hstart⟩, before ++ ls, after, ?_, ?_⟩
  · simpa using hall
  · simpa using hall
  · rw [List.flatMap_append, byteSize_append, hstart]

lemma StretchAt.rowAt {all ls : List Lexeme} {start : Nat} (h : StretchAt all start ls)
    (hrow : Row all []) : RowAt (all.flatMap text) start ls := by
  obtain ⟨before, after, rfl, hstart⟩ := h
  obtain ⟨hrow, -⟩ := row_append_iff.1 hrow
  refine ⟨before.flatMap text, after.flatMap text, ?_, hstart, ?_⟩
  · rw [List.flatMap_append, List.flatMap_append]
  · have hls := (row_append_iff.1 hrow).2
    rwa [List.append_nil] at hls

end Lexeme

/-- Nodes side by side have their lexemes where they say, if all their lexemes together stand at
the start. -/
lemma stretchAt_of_tiles {all : List Lexeme} {start stop : Nat} {ns : List Node}
    (htiles : Tiles start (ns.map Node.cell) stop)
    (h : Lexeme.StretchAt all start (ns.flatMap Node.lexemes)) :
    ∀ n ∈ ns, Lexeme.StretchAt all n.start n.lexemes := by
  induction ns generalizing start with
  | nil =>
      intro n hn
      exact absurd hn (by simp)
  | cons m ns ih =>
      obtain ⟨hstart, htiles⟩ := htiles
      have hstart : m.start = start := hstart
      rw [List.flatMap_cons] at h
      obtain ⟨hm, hns⟩ := h.of_append
      rw [Node.flatMap_text_lexemes] at hns
      intro n hn
      rcases List.mem_cons.1 hn with rfl | hn
      · rw [hstart]
        exact hm
      · refine ih htiles ?_ n hn
        show Lexeme.StretchAt all (m.start + byteSize m.text) _
        rw [hstart]
        exact hns

theorem Chunk.stretchAt_of_mem_nodes {c : Chunk} :
    ∀ n ∈ c.nodes, Lexeme.StretchAt c.lexemes n.start n.lexemes := by
  refine nodes_induction ⟨[], [], ?_, rfl⟩ ?_
  · rw [List.nil_append, List.append_nil]
    rfl
  · intro m _ hm n hn
    have hne : m.parts ≠ [] := List.ne_nil_of_mem hn
    rw [← Node.flatMap_lexemes_parts hne] at hm
    exact stretchAt_of_tiles (Node.tiles_parts hne) hm n hn

theorem rowAt_of_mem_nodes {line : List Char} {n : Node} (h : n ∈ (parse line).nodes) :
    Lexeme.RowAt line n.start n.lexemes := by
  have hrow := (Chunk.stretchAt_of_mem_nodes n h).rowAt (parse_canonical line).row
  rwa [Chunk.flatMap_text_lexemes, parse_text] at hrow

@[simp] lemma stop_root (line : List Char) : (Node.chunk (parse line)).stop = byteSize line := by
  rw [Node.stop, Node.text, parse_text]
  exact Nat.zero_add _

/-! ## No empty node -/

/-- A part in its place among its siblings: those before it fill the line up to its start. -/
def StandsIn {α : Type} [Piece α] (as : List α) (start : Nat) (p : Placed α) : Prop :=
  ∃ before after, as = before ++ p.item :: after ∧
    p.start = start + byteSize (before.flatMap Piece.text)

lemma standsIn_of_mem_arrange {α : Type} [Piece α] {id index start : Nat} {as : List α}
    {p : Placed α} (h : p ∈ arrange id index start as) : StandsIn as start p := by
  induction as generalizing id index start with
  | nil => exact absurd h (by simp [arrange])
  | cons a as ih =>
      rw [arrange] at h
      rcases List.mem_cons.1 h with rfl | h
      · exact ⟨[], as, rfl, rfl⟩
      · obtain ⟨before, after, has, hstart⟩ := ih h
        refine ⟨a :: before, after, by rw [has, List.cons_append], ?_⟩
        rw [List.flatMap_cons, byteSize_append]
        omega

lemma StandsIn.mem {α : Type} [Piece α] {as : List α} {start : Nat} {p : Placed α}
    (h : StandsIn as start p) : p.item ∈ as := by
  obtain ⟨before, after, rfl, -⟩ := h
  simp

/-- What a node is in the tree of a line: each level names the parts that it stands in. -/
def Chunk.Holds (c : Chunk) : Node → Prop
  | .chunk d => d = c
  | .part p => StandsIn c.parts 0 p
  | .formPart f p =>
    StandsIn c.parts 0 (f.withItem (.form f.item)) ∧ StandsIn f.item.parts f.start p
  | .primary f w p =>
    StandsIn c.parts 0 (f.withItem (.form f.item)) ∧
      StandsIn f.item.parts f.start (w.withItem (.word w.item)) ∧
      StandsIn w.item.primaries w.start p

lemma Chunk.holds_of_mem_nodes {c : Chunk} : ∀ n ∈ c.nodes, c.Holds n := by
  refine Chunk.nodes_induction rfl ?_
  intro m _ hm n hn
  match m, hm, hn with
  | .chunk d, hm, hn =>
      obtain ⟨p, hp, rfl⟩ := List.mem_map.1 hn
      obtain rfl : d = c := hm
      exact standsIn_of_mem_arrange hp
  | .part ⟨_, _, _, .form f⟩, hm, hn =>
      obtain ⟨p, hp, rfl⟩ := List.mem_map.1 hn
      exact ⟨hm, standsIn_of_mem_arrange hp⟩
  | .formPart f ⟨_, _, _, .word w⟩, hm, hn =>
      obtain ⟨p, hp, rfl⟩ := List.mem_map.1 hn
      exact ⟨hm.1, hm.2, standsIn_of_mem_arrange hp⟩

lemma FormPart.lexemes_ne_nil {p : FormPart} (h : ∀ w, p = .word w → w.primaries ≠ []) :
    p.lexemes ≠ [] := by
  cases p with
  | word w =>
      intro hnil
      exact h w rfl (List.map_eq_nil_iff.1 hnil)
  | space t => exact List.cons_ne_nil _ _

lemma Form.WellFormed.lexemes_ne_nil {f : Form} (h : f.WellFormed) : f.lexemes ≠ [] := by
  obtain ⟨p, ps, hps⟩ := List.exists_cons_of_ne_nil h.ne_nil
  have hp : p.lexemes ≠ [] := by
    refine FormPart.lexemes_ne_nil fun w hw => h.words w ?_
    rw [hps, hw]
    exact List.mem_cons_self
  rw [Form.lexemes, hps, List.flatMap_cons]
  exact List.append_ne_nil_of_left_ne_nil hp _

lemma Chunk.Canonical.lexemes_ne_nil {c : Chunk} (h : c.Canonical) {n : Node} (hn : c.Holds n)
    (hroot : n ≠ .chunk c) : n.lexemes ≠ [] := by
  match n, hn with
  | .chunk d, hn => exact absurd (congrArg Node.chunk hn) hroot
  | .part ⟨_, _, _, .form f⟩, hn => exact (h.forms f hn.mem).lexemes_ne_nil
  | .part ⟨_, _, _, .separator t⟩, _ => exact List.cons_ne_nil _ _
  | .formPart f p, hn =>
      refine FormPart.lexemes_ne_nil fun w hw => ?_
      exact (h.forms f.item hn.1.mem).words w (hw ▸ hn.2.mem)
  | .primary f w p, _ => exact List.cons_ne_nil _ _

lemma Lexeme.RowAt.text_ne_nil {line : List Char} {start : Nat} {ls : List Lexeme}
    (h : RowAt line start ls) (hne : ls ≠ []) : ls.flatMap text ≠ [] := by
  obtain ⟨l, ls, rfl⟩ := List.exists_cons_of_ne_nil hne
  obtain ⟨_, _, _, _, hl, _⟩ := h
  rw [List.flatMap_cons]
  exact List.append_ne_nil_of_left_ne_nil hl.text_ne_nil _

/-- No node of a line is empty, unless it is the root of the empty line. -/
theorem text_ne_nil_of_mem_nodes {line : List Char} {n : Node} (h : n ∈ (parse line).nodes)
    (hroot : n ≠ .chunk (parse line) ∨ line ≠ []) : n.text ≠ [] := by
  by_cases hn : n = .chunk (parse line)
  · have hline : line ≠ [] := by
      rcases hroot with hr | hr
      · exact absurd hn hr
      · exact hr
    rw [hn, Node.text, parse_text]
    exact hline
  · rw [← n.flatMap_text_lexemes]
    refine (rowAt_of_mem_nodes h).text_ne_nil ?_
    exact (parse_canonical line).lexemes_ne_nil (Chunk.holds_of_mem_nodes n h) hn

lemma start_lt_stop_of_mem_nodes {line : List Char} {n : Node} (h : n ∈ (parse line).nodes)
    (hroot : n ≠ .chunk (parse line) ∨ line ≠ []) : n.start < n.stop := by
  have := byteSize_pos (text_ne_nil_of_mem_nodes h hroot)
  rw [Node.stop]
  omega

/-! ## Leaves -/

namespace Node

def isLeaf (n : Node) : Bool :=
  n.children.isEmpty

/-- The nodes without parts from a node on, from left to right. -/
def leaves (m : Node) : List Node :=
  m.subtree.filter isLeaf

lemma isLeaf_iff {n : Node} : n.isLeaf = true ↔ n.parts = [] := by
  rw [isLeaf, List.isEmpty_iff, children_eq_nil_iff]

lemma leaves_of_parts_eq_nil {m : Node} (h : m.parts = []) : m.leaves = [m] := by
  rw [leaves, subtree_eq, h, List.flatMap_nil, List.filter_cons_of_pos (isLeaf_iff.2 h),
    List.filter_nil]

lemma leaves_of_parts_ne_nil {m : Node} (h : m.parts ≠ []) :
    m.leaves = m.parts.flatMap leaves := by
  have hm : ¬ m.isLeaf = true := fun hl => h (isLeaf_iff.1 hl)
  rw [leaves, subtree_eq, List.filter_cons_of_neg hm, List.filter_flatMap]
  rfl

lemma flatMap_text_leaves (m : Node) : m.leaves.flatMap text = m.text := by
  induction m using parts_induction with
  | step m ih =>
      by_cases hm : m.parts = []
      · rw [leaves_of_parts_eq_nil hm, List.flatMap_singleton]
      · have hparts : m.parts.flatMap text = m.text := by
          rw [← m.flatMap_text_lexemes, ← flatMap_lexemes_parts hm, List.flatMap_assoc]
          exact List.flatMap_congr fun n _ => n.flatMap_text_lexemes.symm
        rw [leaves_of_parts_ne_nil hm, List.flatMap_assoc, ← hparts]
        exact List.flatMap_congr ih

lemma tiles_flatMap_leaves {start stop : Nat} {ns : List Node}
    (h : Tiles start (ns.map cell) stop)
    (hns : ∀ n ∈ ns, Tiles n.start (n.leaves.map cell) n.stop) :
    Tiles start ((ns.flatMap leaves).map cell) stop := by
  induction ns generalizing start with
  | nil => exact h
  | cons n ns ih =>
      obtain ⟨hstart, h⟩ := h
      rw [List.flatMap_cons, List.map_append]
      refine tiles_append_iff.2 ⟨n.stop, ?_, ih h fun m hm => hns m (List.mem_cons_of_mem _ hm)⟩
      have hn : n.start = start := hstart
      rw [← hn]
      exact hns n List.mem_cons_self

theorem tiles_leaves (m : Node) : Tiles m.start (m.leaves.map cell) m.stop := by
  induction m using parts_induction with
  | step m ih =>
      by_cases hm : m.parts = []
      · rw [leaves_of_parts_eq_nil hm]
        exact ⟨rfl, rfl⟩
      · rw [leaves_of_parts_ne_nil hm]
        exact tiles_flatMap_leaves (tiles_parts hm) ih

end Node

/-- The nodes of a tree without parts, in the order of their numbers. -/
def Chunk.leaves (c : Chunk) : List Node :=
  c.nodes.filter Node.isLeaf

end LineShell
