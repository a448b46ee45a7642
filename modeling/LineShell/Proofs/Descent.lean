import LineShell.Proofs.Cover
import LineShell.Syntax.Lookup

/-!
# The node at a position

A position is looked up from the root down, at each level into the first part that it touches,
and the way is never gone back.  Where siblings tile their node and none is empty, that finds the
first leaf of the line that the position touches.

* `Node.leafAt_eq` — the look-up, level by level, is one descent through parts.
* `Chunk.leaves_split` — every leaf has the other leaves before it or behind it.
* `FindsLeaf` — the leaf that a position belongs to.
* **`leafAt_finds_leaf`** — the look-up finds it, and never a smaller number further right.
-/

namespace LineShell

/-! ## The descent -/

namespace Node

/-- Whether a position lies in a node or at one of its ends. -/
def touches (n : Node) (pos : Nat) : Bool :=
  n.start ≤ pos && pos ≤ n.stop

lemma touches_iff {n : Node} {pos : Nat} :
    n.touches pos = true ↔ n.start ≤ pos ∧ pos ≤ n.stop := by
  simp [touches]

/-- The node found from a node on, the position touching it. -/
def leafAt (pos : Nat) : Node → Node
  | chunk c => c.leafAt pos
  | part p => ChunkPart.leafAt p pos
  | formPart f p => FormPart.leafAt f p pos
  | n => n

/-- One step of the descent goes to the first part that is touched, if there is one. -/
lemma leafAt_eq (pos : Nat) : ∀ m : Node,
    m.leafAt pos = ((m.parts.find? (·.touches pos)).map (leafAt pos)).getD m
  | chunk c => by
      have hparts : (chunk c).parts.find? (·.touches pos)
          = (c.placed.find? (·.touches pos)).map part := List.find?_map
      rw [hparts, leafAt, Chunk.leafAt]
      cases c.placed.find? (·.touches pos) with
      | none => rfl
      | some p => rfl
  | part ⟨id, index, start, .form f⟩ => by
      have hparts : (part ⟨id, index, start, .form f⟩).parts.find? (·.touches pos)
          = ((Form.placed ⟨id, index, start, f⟩).find? (·.touches pos)).map
            (formPart ⟨id, index, start, f⟩) := List.find?_map
      rw [hparts, leafAt, ChunkPart.leafAt]
      cases h : (Form.placed ⟨id, index, start, f⟩).find? (·.touches pos) with
      | none => simp [Placed.withItem, h]
      | some p =>
          simp only [Placed.withItem, h]
          rfl
  | part ⟨_, _, _, .separator _⟩ => rfl
  | formPart f ⟨id, index, start, .word w⟩ => by
      have hparts : (formPart f ⟨id, index, start, .word w⟩).parts.find? (·.touches pos)
          = ((Compound.placed ⟨id, index, start, w⟩).find? (·.touches pos)).map
            (primary f ⟨id, index, start, w⟩) := List.find?_map
      rw [hparts, leafAt, FormPart.leafAt]
      cases h : (Compound.placed ⟨id, index, start, w⟩).find? (·.touches pos) with
      | none => simp [Placed.withItem, h]
      | some p =>
          simp only [Placed.withItem, h]
          rfl
  | formPart _ ⟨_, _, _, .space _⟩ => rfl
  | primary _ _ _ => rfl

lemma leafAt_of_none {pos : Nat} {m : Node} (h : m.parts.find? (·.touches pos) = none) :
    m.leafAt pos = m := by
  rw [leafAt_eq, h]
  rfl

lemma leafAt_of_some {pos : Nat} {m n : Node} (h : m.parts.find? (·.touches pos) = some n) :
    m.leafAt pos = n.leafAt pos := by
  rw [leafAt_eq, h]
  rfl

/-- Among siblings that tile a stretch, the first that a position of it touches begins before the
position, unless the stretch begins there. -/
lemma exists_find?_touches {start stop pos : Nat} {ns : List Node}
    (htiles : Tiles start (ns.map cell) stop) (hne : ns ≠ []) (hstart : start ≤ pos)
    (hstop : pos ≤ stop) :
    ∃ n, ns.find? (·.touches pos) = some n ∧ n.start ≤ pos ∧ pos ≤ n.stop ∧
      (n.start < pos ∨ n.start = start) := by
  induction ns generalizing start with
  | nil => exact absurd rfl hne
  | cons n ns ih =>
      obtain ⟨hn, htiles⟩ := htiles
      have hn : n.start = start := hn
      by_cases hpos : pos ≤ n.stop
      · have ht : n.touches pos = true := touches_iff.2 ⟨by omega, hpos⟩
        exact ⟨n, List.find?_cons_of_pos ht, by omega, hpos, .inr hn⟩
      · have ht : ¬ n.touches pos = true := fun h => hpos (touches_iff.1 h).2
        have hns : ns ≠ [] := by
          rintro rfl
          have : n.stop = stop := htiles
          omega
        obtain ⟨m, hm, h1, h2, h3⟩ := ih htiles hns (by show n.stop ≤ pos; omega)
        refine ⟨m, ?_, h1, h2, .inl ?_⟩
        · exact (List.find?_cons_of_neg (p := fun x : Node => x.touches pos) ht).trans hm
        · rcases h3 with h3 | h3
          · exact h3
          · have : m.start = n.stop := h3
            omega

/-- The descent ends at a leaf that the position touches, and at one that begins before the
position if it can. -/
lemma leafAt_mem_leaves {pos : Nat} (m : Node) (hstart : m.start ≤ pos) (hstop : pos ≤ m.stop) :
    m.leafAt pos ∈ m.leaves ∧ (m.leafAt pos).start ≤ pos ∧ pos ≤ (m.leafAt pos).stop ∧
      ((m.leafAt pos).start < pos ∨ (m.leafAt pos).start = m.start) := by
  induction m using parts_induction with
  | step m ih =>
      by_cases hm : m.parts = []
      · have hleaf : m.leafAt pos = m := leafAt_of_none (by rw [hm, List.find?_nil])
        rw [hleaf, leaves_of_parts_eq_nil hm]
        exact ⟨List.mem_singleton_self m, hstart, hstop, .inr rfl⟩
      · obtain ⟨n, hn, h1, h2, h3⟩ := exists_find?_touches (tiles_parts hm) hm hstart hstop
        have hmem : n ∈ m.parts := List.mem_of_find?_eq_some hn
        obtain ⟨hl, hl1, hl2, hl3⟩ := ih n hmem h1 h2
        rw [leafAt_of_some hn, leaves_of_parts_ne_nil hm]
        refine ⟨List.mem_flatMap.2 ⟨n, hmem, hl⟩, hl1, hl2, ?_⟩
        rcases hl3 with hl3 | hl3
        · exact .inl hl3
        · rw [hl3]
          exact h3

end Node

/-! ## The order of the leaves -/

lemma stop_le_of_tiles {start stop : Nat} {ns : List Node}
    (htiles : Tiles start (ns.map Node.cell) stop) (hlt : ∀ n ∈ ns, n.start < n.stop) :
    start ≤ stop ∧ ∀ n ∈ ns, start ≤ n.start ∧ n.stop ≤ stop := by
  induction ns generalizing start with
  | nil => exact ⟨Nat.le_of_eq htiles, by simp⟩
  | cons m ns ih =>
      obtain ⟨hm, htiles⟩ := htiles
      have hm : m.start = start := hm
      have hmlt := hlt m List.mem_cons_self
      obtain ⟨hle, hns⟩ := ih htiles fun n hn => hlt n (List.mem_cons_of_mem _ hn)
      have hle : m.stop ≤ stop := hle
      refine ⟨by omega, ?_⟩
      intro n hn
      rcases List.mem_cons.1 hn with rfl | hn
      · omega
      · have hstart : m.stop ≤ n.start := (hns n hn).1
        have hstop := (hns n hn).2
        omega

lemma pairwise_of_tiles {start stop : Nat} {ns : List Node}
    (htiles : Tiles start (ns.map Node.cell) stop) (hlt : ∀ n ∈ ns, n.start < n.stop) :
    ns.Pairwise fun a b => a.stop ≤ b.start := by
  induction ns generalizing start with
  | nil => exact List.Pairwise.nil
  | cons m ns ih =>
      obtain ⟨-, htiles⟩ := htiles
      have hlt' : ∀ n ∈ ns, n.start < n.stop := fun n hn => hlt n (List.mem_cons_of_mem _ hn)
      refine List.pairwise_cons.2 ⟨?_, ih htiles hlt'⟩
      intro n hn
      exact ((stop_le_of_tiles htiles hlt').2 n hn).1

namespace Chunk

lemma pairwise_id_leaves (c : Chunk) : c.leaves.Pairwise fun a b => a.id < b.id := by
  have h : (c.nodes.map Node.id).Pairwise (· < ·) := by
    rw [map_id_nodes]
    exact List.pairwise_lt_range
  exact (List.pairwise_map.1 h).filter _

lemma mem_nodes_of_mem_leaves {c : Chunk} {n : Node} (h : n ∈ c.leaves) : n ∈ c.nodes :=
  (List.mem_filter.1 h).1

/-- Every leaf of a line that is not empty has the other leaves before it or behind it, in the
order of numbers and of places alike. -/
lemma leaves_split {line : List Char} (hline : line ≠ []) {n : Node}
    (h : n ∈ (parse line).leaves) :
    ∃ as bs, (parse line).leaves = as ++ n :: bs ∧ (∀ a ∈ as, a.id < n.id ∧ a.stop ≤ n.start) ∧
      ∀ b ∈ bs, n.id < b.id ∧ n.stop ≤ b.start := by
  -- leaves are in the order of their numbers and tile the line, and both orders split at `n`
  obtain ⟨as, bs, hsplit⟩ := List.append_of_mem h
  have hlt : ∀ n ∈ (parse line).leaves, n.start < n.stop := fun n hn =>
    start_lt_stop_of_mem_nodes (mem_nodes_of_mem_leaves hn) (.inr hline)
  have hids := (parse line).pairwise_id_leaves
  have hspans := pairwise_of_tiles (Node.chunk (parse line)).tiles_leaves hlt
  have hspans : (parse line).leaves.Pairwise fun a b => a.stop ≤ b.start := hspans
  rw [hsplit] at hids hspans
  obtain ⟨-, hids', hids⟩ := List.pairwise_append.1 hids
  obtain ⟨-, hspans', hspans⟩ := List.pairwise_append.1 hspans
  refine ⟨as, bs, hsplit, fun a ha => ?_, fun b hb => ?_⟩
  · exact ⟨hids a ha n List.mem_cons_self, hspans a ha n List.mem_cons_self⟩
  · exact ⟨(List.pairwise_cons.1 hids').1 b hb, (List.pairwise_cons.1 hspans').1 b hb⟩

end Chunk

/-! ## The look-up -/

/-- The leaf of a tree that a position belongs to: the first that it touches. -/
structure FindsLeaf (c : Chunk) (pos : Nat) (n : Node) : Prop where
  /-- Nothing is inside the node. -/
  leaf : n ∈ c.leaves
  /-- The position touches the node, and no leaf before it. -/
  first : c.leaves.find? (·.touches pos) = some n
  /-- Behind the start of the line, it is the one leaf that begins before the position and does
  not end before it. -/
  unique : 0 < pos → ∀ m ∈ c.leaves, (m.start < pos ∧ pos ≤ m.stop) ↔ m = n
  /-- At the start of the line, it is the first leaf. -/
  head : pos = 0 → c.leaves.head? = some n

/-- A position on the line touches the leaf that is found, and lies behind its start unless that is
the start of the line. -/
lemma leafAt_start {line : List Char} {pos : Nat} (h : pos ≤ byteSize line) :
    (parse line).leafAt pos ∈ (parse line).leaves ∧ ((parse line).leafAt pos).start ≤ pos ∧
      pos ≤ ((parse line).leafAt pos).stop ∧
      (((parse line).leafAt pos).start < pos ∨ ((parse line).leafAt pos).start = 0) := by
  have hstop : pos ≤ (Node.chunk (parse line)).stop := by
    rw [stop_root]
    exact h
  exact Node.leafAt_mem_leaves (.chunk (parse line)) (Nat.zero_le pos) hstop

lemma findsLeaf_leafAt {line : List Char} {pos : Nat} (hline : line ≠ [])
    (hpos : pos ≤ byteSize line) : FindsLeaf (parse line) pos ((parse line).leafAt pos) := by
  obtain ⟨hleaf, hstart, hstop, hbefore⟩ := leafAt_start hpos
  obtain ⟨as, bs, hsplit, has, hbs⟩ := Chunk.leaves_split hline hleaf
  have hlt : ∀ m ∈ (parse line).leaves, m.start < m.stop := fun m hm =>
    start_lt_stop_of_mem_nodes (Chunk.mem_nodes_of_mem_leaves hm) (.inr hline)
  have hasm : ∀ a ∈ as, a.start < a.stop := fun a ha => hlt a (by rw [hsplit]; simp [ha])
  refine ⟨hleaf, ?_, ?_, ?_⟩
  · refine List.find?_eq_some_iff_append.2 ⟨Node.touches_iff.2 ⟨hstart, hstop⟩, as, bs, hsplit, ?_⟩
    intro a ha
    have h1 := (has a ha).2
    have h2 := hasm a ha
    have hnot : ¬ a.touches pos = true := by
      intro ht
      have := Node.touches_iff.1 ht
      omega
    simpa using hnot
  · intro hpos0 m hm
    constructor
    · rintro ⟨h1, h2⟩
      rw [hsplit] at hm
      rcases List.mem_append.1 hm with hm | hm
      · have := (has m hm).2
        omega
      · rcases List.mem_cons.1 hm with rfl | hm
        · rfl
        · have := (hbs m hm).2
          omega
    · rintro rfl
      exact ⟨by omega, hstop⟩
  · rintro rfl
    cases as with
    | nil => rw [hsplit, List.nil_append, List.head?_cons]
    | cons a as =>
        have h1 := (has a List.mem_cons_self).2
        have h2 := hasm a List.mem_cons_self
        omega

/-- Where no leaf can be meant, the look-up stays at the root. -/
lemma leafAt_eq_root {line : List Char} {pos : Nat} (h : line = [] ∨ byteSize line < pos) :
    (parse line).leafAt pos = .chunk (parse line) := by
  have hnone : (Node.chunk (parse line)).parts.find? (·.touches pos) = none := by
    refine List.find?_eq_none.2 fun n hn ht => ?_
    have hne : (Node.chunk (parse line)).parts ≠ [] := List.ne_nil_of_mem hn
    have hroot : ∀ m ∈ (Node.chunk (parse line)).parts, m.start < m.stop := by
      intro m hm
      have hmem := Chunk.mem_nodes_of_mem_parts (parse line).root_mem_nodes hm
      refine start_lt_stop_of_mem_nodes hmem (.inl ?_)
      rintro rfl
      exact absurd (Node.id_lt_of_mem_parts hm) (by simp [Node.id])
    have hstop := ((stop_le_of_tiles (Node.tiles_parts hne) hroot).2 n hn).2
    rw [stop_root] at hstop
    have hlt := hroot n hn
    have hpos := Node.touches_iff.1 ht
    have hzero : (Node.chunk (parse line)).start = 0 := rfl
    rcases h with rfl | h
    · rw [byteSize_nil] at hstop
      omega
    · omega
  exact Node.leafAt_of_none hnone

lemma id_leafAt_le {line : List Char} {pos later : Nat} (h : pos ≤ later)
    (hlater : later ≤ byteSize line) :
    ((parse line).leafAt pos).id ≤ ((parse line).leafAt later).id := by
  by_cases hline : line = []
  · rw [leafAt_eq_root (.inl hline), leafAt_eq_root (.inl hline)]
  · obtain ⟨hleaf, hstart, hstop, hbefore⟩ := leafAt_start (Nat.le_trans h hlater)
    obtain ⟨hleaf', hstart', hstop', -⟩ := leafAt_start hlater
    obtain ⟨as, bs, hsplit, has, hbs⟩ := Chunk.leaves_split hline hleaf
    have hlt := start_lt_stop_of_mem_nodes (Chunk.mem_nodes_of_mem_leaves hleaf') (.inr hline)
    rw [hsplit] at hleaf'
    rcases List.mem_append.1 hleaf' with hm | hm
    · have := (has _ hm).2
      omega
    · rcases List.mem_cons.1 hm with hm | hm
      · rw [hm]
      · exact Nat.le_of_lt (hbs _ hm).1

/-- **The look-up never goes wrong.**  A position on a line finds the leaf it belongs to, any other
position the root, and positions further right never find a smaller number. -/
theorem leafAt_finds_leaf (line : List Char) (pos : Nat) :
    (line ≠ [] → pos ≤ byteSize line →
      FindsLeaf (parse line) pos ((parse line).leafAt pos)) ∧
    (line = [] ∨ byteSize line < pos → (parse line).leafAt pos = .chunk (parse line)) ∧
    ∀ later, pos ≤ later → later ≤ byteSize line →
      ((parse line).leafAt pos).id ≤ ((parse line).leafAt later).id :=
  ⟨findsLeaf_leafAt, leafAt_eq_root, fun _ => id_leafAt_le⟩

end LineShell
