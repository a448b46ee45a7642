import LineShell.Proofs.Cover
import Mathlib.Data.List.Nodup

/-!
# Nothing of a line is lost in its tree

The tree of a line is a tree over the line: links agree, numbers run in the order of the text, and
spans tile.  Every span begins and ends between two characters, so the text of a node can be cut
out of the line, and it is the text that the node holds.

* `Chunk.isTree_cells` — the table of any tree is a tree over its text.
* `Lossless` — all that callers rely on when they slice a line by its nodes.
* **`parse_lossless`** — every line has such a tree.
-/

namespace LineShell

/-! ## The table of a tree -/

namespace Chunk

lemma walkAll_map_id {c : Chunk} {ns : List Node}
    (h : ∀ n ∈ ns, Walk c.cells n.id (n.subtree.map Node.id)) :
    WalkAll c.cells (ns.map Node.id) ((ns.flatMap Node.subtree).map Node.id) := by
  induction ns with
  | nil => exact .nil
  | cons n ns ih =>
      rw [List.flatMap_cons, List.map_append]
      exact .cons (h n List.mem_cons_self) (ih fun m hm => h m (List.mem_cons_of_mem _ hm))

lemma walk_of_mem_nodes {c : Chunk} (m : Node) (h : m ∈ c.nodes) :
    Walk c.cells m.id (m.subtree.map Node.id) := by
  induction m using Node.parts_induction with
  | step m ih =>
      rw [Node.subtree_eq, List.map_cons]
      refine .node (getElem?_cells h) ?_
      show WalkAll c.cells m.children _
      rw [Node.children_eq]
      exact walkAll_map_id fun n hn => ih n hn (mem_nodes_of_mem_parts h hn)

lemma exists_of_getElem?_cells {c : Chunk} {i : Nat} {x : Cell} (h : c.cells[i]? = some x) :
    ∃ n ∈ c.nodes, n.id = i ∧ x = n.cell := by
  rw [cells, List.getElem?_map] at h
  obtain ⟨n, hn, rfl⟩ := Option.map_eq_some_iff.1 h
  exact ⟨n, List.mem_of_getElem? hn, id_of_getElem?_nodes hn, rfl⟩

lemma exists_of_mem_cells {c : Chunk} {x : Cell} (h : x ∈ c.cells) :
    ∃ n ∈ c.nodes, x = n.cell := by
  obtain ⟨n, hn, rfl⟩ := List.mem_map.1 h
  exact ⟨n, hn, rfl⟩

/-- The node around a node is in the table before it and has it as a child once. -/
lemma exists_parent {c : Chunk} {n : Node} (h : n ∈ c.nodes) (hroot : n.id ≠ 0) :
    ∃ m ∈ c.nodes, n ∈ m.parts ∧ n.parent = some m.id ∧ m.id < n.id ∧
      m.children.count n.id = 1 := by
  rcases eq_root_or_mem_parts n h with rfl | ⟨m, hm, hn⟩
  · exact absurd rfl hroot
  · have hchild : n.id ∈ m.children := by
      rw [Node.children_eq]
      exact List.mem_map_of_mem hn
    exact ⟨m, hm, hn, Node.parent_of_mem_parts hn, Node.id_lt_of_mem_parts hn,
      List.count_eq_one_of_mem m.nodup_children hchild⟩

theorem isTree_cells (c : Chunk) : IsTree c.text c.cells where
  root := ⟨_, rfl, rfl, rfl, Nat.zero_add _, rfl⟩
  parent i x hx hi := by
    obtain ⟨n, hn, rfl, rfl⟩ := exists_of_getElem?_cells hx
    obtain ⟨m, hm, -, hp, hlt, hcount⟩ := exists_parent hn hi
    exact ⟨m.id, m.cell, hp, getElem?_cells hm, hlt, hcount⟩
  child j x hx i hi := by
    obtain ⟨m, hm, rfl, rfl⟩ := exists_of_getElem?_cells hx
    obtain ⟨n, hn, rfl⟩ := List.mem_map.1 (Node.children_eq m ▸ hi : i ∈ m.parts.map Node.id)
    exact ⟨n.cell, getElem?_cells (mem_nodes_of_mem_parts hm hn), Node.parent_of_mem_parts hn⟩
  preorder := by
    rw [cells, List.length_map, ← map_id_nodes]
    exact walk_of_mem_nodes (.chunk c) c.root_mem_nodes
  tiled x hx hne := by
    obtain ⟨m, hm, rfl⟩ := exists_of_mem_cells hx
    have hparts : m.parts ≠ [] := fun h => hne (Node.children_eq_nil_iff.2 h)
    exact ⟨m.parts.map Node.cell, map_getElem?_children hm, Node.tiles_parts hparts⟩

end Chunk

/-! ## The tree of a line -/

lemma index_eq_idxOf {c : Chunk} {m n : Node} (hm : m ∈ c.nodes) (hn : n ∈ c.nodes)
    (h : n.parent = some m.id) : n.index = some (m.children.idxOf n.id) := by
  rcases Chunk.eq_root_or_mem_parts n hn with rfl | ⟨m', hm', hn'⟩
  · exact absurd h (by simp [Node.parent])
  · have hid : m'.id = m.id := by
      rw [Node.parent_of_mem_parts hn'] at h
      exact Option.some.inj h
    obtain rfl := Chunk.eq_of_id_eq hm' hm hid
    obtain ⟨k, hk⟩ := List.mem_iff_getElem?.1 hn'
    have hchild : m'.children[k]? = some n.id := by
      rw [Node.children_eq, List.getElem?_map, hk]
      rfl
    obtain ⟨hlt, hget⟩ := List.getElem?_eq_some_iff.1 hchild
    have hidx := m'.nodup_children.idxOf_getElem k hlt
    rw [hget] at hidx
    rw [Node.index_of_getElem?_parts hk, hidx]

/-- A tree that keeps a line whole. -/
structure Lossless (line : List Char) (c : Chunk) : Prop where
  /-- Seen as a table, it is a tree over the line, the root covering all of it. -/
  tree : IsTree line c.cells
  /-- Nodes are numbered by their places in the table. -/
  numbered : ∀ (i : Nat) (n : Node), c.nodes[i]? = some n → n.id = i
  /-- Positions among siblings agree with the table. -/
  indexed : ∀ m ∈ c.nodes, ∀ n ∈ c.nodes, n.parent = some m.id →
    n.index = some (m.children.idxOf n.id)
  /-- A span begins and ends between characters, and the text of the node is the line there. -/
  sliced : ∀ n ∈ c.nodes, slice? line n.start n.stop = some n.text
  /-- Only the root of the empty line is empty. -/
  nonempty : ∀ n ∈ c.nodes, n.id ≠ 0 ∨ line ≠ [] → n.start < n.stop
  /-- The nodes with nothing inside them, put side by side, are the line. -/
  leaves : c.leaves.flatMap Node.text = line

/-- **The tree of a line keeps the line whole.** -/
theorem parse_lossless (line : List Char) : Lossless line (parse line) where
  tree := by
    have h := (parse line).isTree_cells
    rwa [parse_text] at h
  numbered _ _ h := Chunk.id_of_getElem?_nodes h
  indexed _ hm _ hn h := index_eq_idxOf hm hn h
  sliced n hn := by
    obtain ⟨before, after, hline, hstart, -⟩ := rowAt_of_mem_nodes hn
    rw [Node.flatMap_text_lexemes] at hline
    exact slice?_eq_some_iff.2 ⟨before, after, hline, hstart, rfl⟩
  nonempty n hn h := by
    refine start_lt_stop_of_mem_nodes hn (h.imp_left fun hid hroot => hid ?_)
    rw [hroot]
    rfl
  leaves := by
    have h := (Node.chunk (parse line)).flatMap_text_leaves
    rwa [Node.text, parse_text] at h

end LineShell
