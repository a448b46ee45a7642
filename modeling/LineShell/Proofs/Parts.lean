import LineShell.Proofs.Grouping
import LineShell.Proofs.Table

/-!
# A node and its parts

The four levels of a tree are one as far as nodes go: a node has parts, which are nodes again, and
all that is said of a tree follows from what holds between a node and its parts.  This file proves
those facts once, level by level; the files after it argue by `Node.parts_induction`.

* `Node.parts`, `Node.subtree`, `Node.lexemes` — the nodes directly inside a node, all nodes from
  it on, and its lexemes.
* `Node.tiles_parts`, `Node.flatMap_lexemes_parts` — parts cover their node side by side.
* **`Chunk.getElem?_nodes`** — nodes are numbered by their places in the table.
* **`Chunk.nodes_induction`** — what the root has and nodes hand on to their parts, all nodes have.
-/

namespace LineShell

/-! ## Parts -/

namespace Node

/-- The nodes directly inside a node, from left to right. -/
def parts : Node → List Node
  | chunk c => c.placed.map part
  | part ⟨id, index, start, .form f⟩ =>
    (Form.placed ⟨id, index, start, f⟩).map (formPart ⟨id, index, start, f⟩)
  | formPart f ⟨id, index, start, .word w⟩ =>
    (Compound.placed ⟨id, index, start, w⟩).map (primary f ⟨id, index, start, w⟩)
  | _ => []

/-- A node and all nodes inside it, in the order of their numbers. -/
def subtree : Node → List Node
  | chunk c => c.nodes
  | part p => ChunkPart.nodes p
  | formPart f p => FormPart.nodes f p
  | n => [n]

/-- The lexemes that a node covers. -/
def lexemes : Node → List Lexeme
  | chunk c => c.lexemes
  | part p => p.item.lexemes
  | formPart _ p => p.item.lexemes
  | primary _ _ p => [.primary p.item]

/-- What holds of a node if it holds of its parts holds of every node. -/
theorem parts_induction {motive : Node → Prop}
    (step : ∀ m : Node, (∀ n ∈ m.parts, motive n) → motive m) (n : Node) : motive n := by
  -- segments have no parts, so the levels are gone through from there up
  have hprimary : ∀ f w p, motive (primary f w p) :=
    fun f w p => step _ fun n hn => absurd hn (by simp [parts])
  have hformPart : ∀ f p, motive (formPart f p)
    | f, ⟨id, index, start, .word w⟩ => step _ fun n hn => by
        obtain ⟨q, -, rfl⟩ := List.mem_map.1 hn
        exact hprimary _ _ q
    | f, ⟨id, index, start, .space t⟩ => step _ fun n hn => absurd hn (by simp [parts])
  have hpart : ∀ p, motive (part p)
    | ⟨id, index, start, .form f⟩ => step _ fun n hn => by
        obtain ⟨q, -, rfl⟩ := List.mem_map.1 hn
        exact hformPart _ q
    | ⟨id, index, start, .separator t⟩ => step _ fun n hn => absurd hn (by simp [parts])
  cases n with
  | chunk c =>
      refine step _ fun n hn => ?_
      obtain ⟨p, -, rfl⟩ := List.mem_map.1 hn
      exact hpart p
  | part p => exact hpart p
  | formPart f p => exact hformPart f p
  | primary f w p => exact hprimary f w p

lemma children_eq : ∀ m : Node, m.children = m.parts.map id
  | chunk c => by
      rw [parts, List.map_map]
      rfl
  | part ⟨_, _, _, .form f⟩ => by
      rw [parts, List.map_map]
      rfl
  | part ⟨_, _, _, .separator _⟩ => rfl
  | formPart _ ⟨_, _, _, .word w⟩ => by
      rw [parts, List.map_map]
      rfl
  | formPart _ ⟨_, _, _, .space _⟩ => rfl
  | primary _ _ _ => rfl

lemma children_eq_nil_iff {m : Node} : m.children = [] ↔ m.parts = [] := by
  rw [children_eq, List.map_eq_nil_iff]

/-- A subtree is its root and the subtrees of the parts, one after another. -/
lemma subtree_eq : ∀ m : Node, m.subtree = m :: m.parts.flatMap subtree
  | chunk c => by
      rw [parts, List.flatMap_map]
      rfl
  | part ⟨_, _, _, .form f⟩ => by
      rw [parts, List.flatMap_map]
      rfl
  | part ⟨_, _, _, .separator _⟩ => rfl
  | formPart _ ⟨_, _, _, .word w⟩ => by
      rw [parts, List.flatMap_map]
      exact congrArg (_ :: ·) List.map_eq_flatMap
  | formPart _ ⟨_, _, _, .space _⟩ => rfl
  | primary _ _ _ => rfl

lemma parent_of_mem_parts : ∀ {m n : Node}, n ∈ m.parts → n.parent = some m.id
  | chunk c, n, h => by
      obtain ⟨p, -, rfl⟩ := List.mem_map.1 h
      rfl
  | part ⟨_, _, _, .form f⟩, n, h => by
      obtain ⟨p, -, rfl⟩ := List.mem_map.1 h
      rfl
  | part ⟨_, _, _, .separator _⟩, n, h => absurd h (by simp [parts])
  | formPart _ ⟨_, _, _, .word w⟩, n, h => by
      obtain ⟨p, -, rfl⟩ := List.mem_map.1 h
      rfl
  | formPart _ ⟨_, _, _, .space _⟩, n, h => absurd h (by simp [parts])
  | primary _ _ _, n, h => absurd h (by simp [parts])

lemma flatMap_text_lexemes : ∀ m : Node, m.lexemes.flatMap Lexeme.text = m.text
  | chunk c => c.flatMap_text_lexemes
  | part p => p.item.flatMap_text_lexemes
  | formPart _ p => p.item.flatMap_text_lexemes
  | primary _ _ p => by simp [lexemes, text, Lexeme.text]

end Node

/-! ## Siblings in their places -/

lemma total_cons {α : Type} [Piece α] (a : α) (as : List α) :
    Piece.total (a :: as) = Piece.count a + Piece.total as :=
  rfl

lemma total_append {α : Type} [Piece α] (as bs : List α) :
    Piece.total (as ++ bs) = Piece.total as + Piece.total bs := by
  induction as with
  | nil => exact (Nat.zero_add _).symm
  | cons a as ih => rw [List.cons_append, total_cons, total_cons, ih, Nat.add_assoc]

lemma total_primaries (ps : List Primary) : Piece.total ps = ps.length := by
  induction ps with
  | nil => rfl
  | cons p ps ih =>
      rw [total_cons, ih, List.length_cons, Nat.add_comm]
      rfl

section arrange

variable {α : Type} [Piece α] (id index start : Nat) (as : List α)

@[simp] lemma map_item_arrange : (arrange id index start as).map Placed.item = as := by
  induction as generalizing id index start with
  | nil => rfl
  | cons a as ih => rw [arrange, List.map_cons, ih]

variable {id index start as}

lemma arrange_eq_nil_iff : arrange id index start as = [] ↔ as = [] := by
  cases as <;> simp [arrange]

lemma index_of_getElem?_arrange {p : Placed α} {k : Nat}
    (h : (arrange id index start as)[k]? = some p) : p.index = index + k := by
  induction as generalizing id index start k with
  | nil => exact absurd h (by simp [arrange])
  | cons a as ih =>
      rw [arrange] at h
      cases k with
      | zero =>
          obtain rfl : Placed.mk id index start a = p := by simpa using h
          rfl
      | succ k =>
          have := ih (by simpa using h)
          omega

lemma tiles_map_arrange {mk : Placed α → Node} (hstart : ∀ p, (mk p).start = p.start)
    (htext : ∀ p, (mk p).text = Piece.text p.item) :
    Tiles start ((arrange id index start as).map fun p => (mk p).cell)
      (start + byteSize (as.flatMap Piece.text)) := by
  induction as generalizing id index start with
  | nil => rfl
  | cons a as ih =>
      rw [arrange, List.map_cons]
      refine ⟨hstart _, ?_⟩
      have hstop : (mk ⟨id, index, start, a⟩).cell.stop = start + byteSize (Piece.text a) := by
        show Node.stop _ = _
        rw [Node.stop, hstart, htext]
      rw [hstop, List.flatMap_cons, byteSize_append, ← Nat.add_assoc]
      exact ih

/-- Numbers run on through siblings, if they run through each of them. -/
lemma map_id_flatMap_arrange {nodes : Placed α → List Node}
    (h : ∀ p, (nodes p).map Node.id = List.range' p.id (Piece.count p.item)) :
    ((arrange id index start as).flatMap nodes).map Node.id
      = List.range' id (Piece.total as) := by
  induction as generalizing id index start with
  | nil => rfl
  | cons a as ih =>
      rw [arrange, List.flatMap_cons, List.map_append, h, ih, total_cons, List.range'_append_1]

end arrange

/-! ## A node and its parts -/

namespace Node

lemma kind_part (p : Placed ChunkPart) : (part p).kind = p.item.kind := by
  obtain ⟨_, _, _, _ | _⟩ := p <;> rfl

lemma kind_formPart (f : Placed Form) (p : Placed FormPart) :
    (formPart f p).kind = p.item.kind := by
  obtain ⟨_, _, _, _ | _⟩ := p <;> rfl

lemma exists_of_kind_eq_primary {n : Node} {k : PrimaryKind} (h : n.kind = .primary k) :
    ∃ f w p, n = .primary f w p ∧ p.item.kind = k := by
  match n, h with
  | .part ⟨_, _, _, .form _⟩, h | .part ⟨_, _, _, .separator _⟩, h
  | .formPart _ ⟨_, _, _, .word _⟩, h | .formPart _ ⟨_, _, _, .space _⟩, h =>
      exact absurd h (by simp [kind])
  | .primary f w p, h => exact ⟨f, w, p, rfl, NodeKind.primary.inj h⟩

/-- The parts of a tree cover all of it, even if there are none. -/
lemma tiles_parts_chunk (c : Chunk) :
    Tiles (chunk c).start ((chunk c).parts.map cell) (chunk c).stop := by
  rw [parts, List.map_map]
  exact tiles_map_arrange (fun _ => rfl) (fun _ => rfl)

/-- The parts of a node cover its span side by side. -/
lemma tiles_parts : ∀ {m : Node}, m.parts ≠ [] → Tiles m.start (m.parts.map cell) m.stop
  | chunk c, _ => tiles_parts_chunk c
  | part ⟨_, _, _, .form f⟩, _ => by
      rw [parts, List.map_map]
      exact tiles_map_arrange (fun _ => rfl) (fun _ => rfl)
  | part ⟨_, _, _, .separator _⟩, h => absurd rfl h
  | formPart _ ⟨_, _, _, .word w⟩, _ => by
      rw [parts, List.map_map]
      exact tiles_map_arrange (fun _ => rfl) (fun _ => rfl)
  | formPart _ ⟨_, _, _, .space _⟩, h => absurd rfl h
  | primary _ _ _, h => absurd rfl h

lemma flatMap_lexemes_parts : ∀ {m : Node}, m.parts ≠ [] → m.parts.flatMap lexemes = m.lexemes
  | chunk c, _ => by
      rw [parts, List.flatMap_map, lexemes, Chunk.lexemes, ← map_item_arrange 1 0 0 c.parts,
        List.flatMap_map]
      rfl
  | part ⟨id, _, start, .form f⟩, _ => by
      rw [parts, List.flatMap_map, lexemes, ChunkPart.lexemes, Form.lexemes,
        ← map_item_arrange (id + 1) 0 start f.parts, List.flatMap_map]
      rfl
  | part ⟨_, _, _, .separator _⟩, h => absurd rfl h
  | formPart _ ⟨id, _, start, .word w⟩, _ => by
      rw [parts, List.flatMap_map, lexemes, FormPart.lexemes, Compound.lexemes,
        List.map_eq_flatMap, ← map_item_arrange (id + 1) 0 start w.primaries, List.flatMap_map]
      rfl
  | formPart _ ⟨_, _, _, .space _⟩, h => absurd rfl h
  | primary _ _ _, h => absurd rfl h

lemma index_of_getElem?_parts : ∀ {m n : Node} {k : Nat}, m.parts[k]? = some n → n.index = some k
  | chunk c, n, k, h => by
      rw [parts, List.getElem?_map] at h
      obtain ⟨p, hp, rfl⟩ := Option.map_eq_some_iff.1 h
      rw [index, index_of_getElem?_arrange hp, Nat.zero_add]
  | part ⟨_, _, _, .form f⟩, n, k, h => by
      rw [parts, List.getElem?_map] at h
      obtain ⟨p, hp, rfl⟩ := Option.map_eq_some_iff.1 h
      rw [index, index_of_getElem?_arrange hp, Nat.zero_add]
  | part ⟨_, _, _, .separator _⟩, n, k, h => absurd h (by simp [parts])
  | formPart _ ⟨_, _, _, .word w⟩, n, k, h => by
      rw [parts, List.getElem?_map] at h
      obtain ⟨p, hp, rfl⟩ := Option.map_eq_some_iff.1 h
      rw [index, index_of_getElem?_arrange hp, Nat.zero_add]
  | formPart _ ⟨_, _, _, .space _⟩, n, k, h => absurd h (by simp [parts])
  | primary _ _ _, n, k, h => absurd h (by simp [parts])

/-- Numbers run through a node, if they run through each of its parts. -/
lemma map_id_subtree_of_parts {α : Type} [Piece α] {m : Node} (as : List α) (mk : Placed α → Node)
    (hm : m.parts = (arrange (m.id + 1) 0 m.start as).map mk)
    (h : ∀ p, (mk p).subtree.map id = List.range' p.id (Piece.count p.item)) :
    m.subtree.map id = List.range' m.id (Piece.total as + 1) := by
  rw [subtree_eq, hm, List.flatMap_map, List.map_cons, map_id_flatMap_arrange h]
  exact List.range'_succ.symm

lemma count_word (w : Compound) :
    Piece.count (FormPart.word w) = Piece.total w.primaries + 1 := by
  rw [total_primaries, Nat.add_comm]
  rfl

lemma count_form (f : Form) : Piece.count (ChunkPart.form f) = Piece.total f.parts + 1 :=
  Nat.add_comm _ _

lemma map_id_subtree_formPart (f : Placed Form) : ∀ p : Placed FormPart,
    (formPart f p).subtree.map id = List.range' p.id (Piece.count p.item)
  | ⟨i, j, start, .word w⟩ => by
      rw [map_id_subtree_of_parts w.primaries (primary f ⟨i, j, start, w⟩) rfl
        (fun _ => rfl), ← count_word]
      rfl
  | ⟨_, _, _, .space _⟩ => rfl

lemma map_id_subtree_part : ∀ p : Placed ChunkPart,
    (part p).subtree.map id = List.range' p.id (Piece.count p.item)
  | ⟨i, j, start, .form f⟩ => by
      rw [map_id_subtree_of_parts f.parts (formPart ⟨i, j, start, f⟩) rfl
        (map_id_subtree_formPart _), ← count_form]
      rfl
  | ⟨_, _, _, .separator _⟩ => rfl

/-- Nodes are numbered from the root on, each before its parts and these from left to right. -/
lemma map_id_subtree (m : Node) : m.subtree.map id = List.range' m.id m.subtree.length := by
  have h : ∃ n, m.subtree.map id = List.range' m.id n := by
    cases m with
    | chunk c => exact ⟨_, map_id_subtree_of_parts c.parts part rfl map_id_subtree_part⟩
    | part p => exact ⟨_, map_id_subtree_part p⟩
    | formPart f p => exact ⟨_, map_id_subtree_formPart f p⟩
    | primary f w p => exact ⟨1, rfl⟩
  obtain ⟨n, hn⟩ := h
  have hlength := congrArg List.length hn
  rw [List.length_map, List.length_range'] at hlength
  rw [hn, hlength]

lemma mem_subtree_of_mem_parts {r m n : Node} (hm : m ∈ r.subtree) (hn : n ∈ m.parts) :
    n ∈ r.subtree := by
  induction r using parts_induction with
  | step r ih =>
      rw [subtree_eq] at hm ⊢
      rcases List.mem_cons.1 hm with rfl | hm
      · refine List.mem_cons_of_mem _ (List.mem_flatMap.2 ⟨n, hn, ?_⟩)
        rw [subtree_eq]
        exact List.mem_cons_self
      · obtain ⟨q, hq, hm⟩ := List.mem_flatMap.1 hm
        exact List.mem_cons_of_mem _ (List.mem_flatMap.2 ⟨q, hq, ih q hq hm⟩)

lemma id_lt_of_mem_parts {m n : Node} (h : n ∈ m.parts) : m.id < n.id := by
  have hids := m.map_id_subtree
  rw [subtree_eq, List.map_cons, List.length_cons, List.range'_succ] at hids
  have hn : n ∈ m.parts.flatMap subtree := by
    refine List.mem_flatMap.2 ⟨n, h, ?_⟩
    rw [subtree_eq]
    exact List.mem_cons_self
  have hid : n.id ∈ List.range' (m.id + 1) (m.parts.flatMap subtree).length := by
    rw [← (List.cons.inj hids).2]
    exact List.mem_map_of_mem hn
  have := (List.mem_range'_1.1 hid).1
  omega

lemma sublist_flatMap_subtree (ns : List Node) : ns.Sublist (ns.flatMap subtree) := by
  induction ns with
  | nil => exact List.Sublist.slnil
  | cons n ns ih =>
      rw [List.flatMap_cons, subtree_eq, List.cons_append]
      exact (ih.trans (List.sublist_append_right _ _)).cons_cons n

lemma nodup_children (m : Node) : m.children.Nodup := by
  have hids : (m.subtree.map id).Nodup := by
    rw [map_id_subtree]
    exact List.nodup_range'
  rw [subtree_eq, List.map_cons, List.nodup_cons] at hids
  rw [children_eq]
  exact hids.2.sublist ((sublist_flatMap_subtree m.parts).map id)

end Node

/-! ## The nodes of a tree -/

namespace Chunk

lemma length_nodes (c : Chunk) : c.nodes.length = Piece.total c.parts + 1 := by
  have hids := Node.map_id_subtree_of_parts (m := .chunk c) c.parts .part rfl
    Node.map_id_subtree_part
  have hlength := congrArg List.length hids
  rwa [List.length_map, List.length_range'] at hlength

lemma map_id_nodes (c : Chunk) : c.nodes.map Node.id = List.range c.nodes.length := by
  rw [List.range_eq_range']
  exact (Node.chunk c).map_id_subtree

lemma id_of_getElem?_nodes {c : Chunk} {i : Nat} {n : Node} (h : c.nodes[i]? = some n) :
    n.id = i := by
  have hi : (c.nodes.map Node.id)[i]? = some n.id := by rw [List.getElem?_map, h]; rfl
  rw [map_id_nodes] at hi
  obtain ⟨_, hi⟩ := List.getElem?_eq_some_iff.1 hi
  rw [List.getElem_range] at hi
  exact hi.symm

theorem getElem?_nodes {c : Chunk} {n : Node} (h : n ∈ c.nodes) : c.nodes[n.id]? = some n := by
  obtain ⟨i, hi⟩ := List.mem_iff_getElem?.1 h
  rw [id_of_getElem?_nodes hi, hi]

lemma getElem?_cells {c : Chunk} {n : Node} (h : n ∈ c.nodes) : c.cells[n.id]? = some n.cell := by
  rw [cells, List.getElem?_map, getElem?_nodes h]
  rfl

lemma eq_of_id_eq {c : Chunk} {m n : Node} (hm : m ∈ c.nodes) (hn : n ∈ c.nodes)
    (h : m.id = n.id) : m = n := by
  have hget := getElem?_nodes hm
  rw [h, getElem?_nodes hn] at hget
  exact (Option.some.inj hget).symm

lemma root_mem_nodes (c : Chunk) : .chunk c ∈ c.nodes :=
  List.mem_cons_self

lemma mem_nodes_of_mem_parts {c : Chunk} {m n : Node} (hm : m ∈ c.nodes) (hn : n ∈ m.parts) :
    n ∈ c.nodes :=
  Node.mem_subtree_of_mem_parts (r := .chunk c) hm hn

/-- What holds of the root, and of the parts of each node that it holds of, holds of every node. -/
theorem nodes_induction {c : Chunk} {motive : Node → Prop} (root : motive (.chunk c))
    (step : ∀ m ∈ c.nodes, motive m → ∀ n ∈ m.parts, motive n) : ∀ n ∈ c.nodes, motive n := by
  have hsub : ∀ r : Node, r ∈ c.nodes → motive r → ∀ n ∈ r.subtree, motive n := by
    intro r
    induction r using Node.parts_induction with
    | step r ih =>
        intro hr hm n hn
        rw [Node.subtree_eq] at hn
        rcases List.mem_cons.1 hn with rfl | hn
        · exact hm
        · obtain ⟨q, hq, hn⟩ := List.mem_flatMap.1 hn
          exact ih q hq (mem_nodes_of_mem_parts hr hq) (step r hr hm q hq) n hn
  exact hsub (.chunk c) (root_mem_nodes c) root

lemma eq_root_or_mem_parts {c : Chunk} :
    ∀ n ∈ c.nodes, n = .chunk c ∨ ∃ m ∈ c.nodes, n ∈ m.parts := by
  refine nodes_induction (.inl rfl) ?_
  intro m hm _ n hn
  exact .inr ⟨m, hm, hn⟩

lemma map_getElem?_children {c : Chunk} {m : Node} (h : m ∈ c.nodes) :
    m.children.map (c.cells[·]?) = (m.parts.map Node.cell).map some := by
  rw [Node.children_eq, List.map_map, List.map_map]
  refine List.map_congr_left fun n hn => ?_
  exact getElem?_cells (mem_nodes_of_mem_parts h hn)

end Chunk

end LineShell
