import LineShell.Syntax.Node
import Mathlib.Data.List.Basic

/-!
# Tables of nodes

A tree can be given as a table: the nodes in the order of their numbers, each with its span and
with the numbers of the nodes around it and inside it.  Such a table may say anything.  This file
says when it is a tree over a line, without a word about how trees are made.

* `Cell`, `Chunk.cells` — a node in a table, and the table of a tree.
* `Tiles` — spans side by side.
* `Walk` — the way through a table from a node on, each node before those inside it.
* **`IsTree`** — a table whose links agree, whose numbers are those of the walk from the root, and
  whose spans tile the line.
-/

namespace LineShell

/-- A node as a table holds it: what it is, where it stands on the line, and the numbers of the
nodes around it and directly inside it. -/
structure Cell where
  kind : NodeKind
  start : Nat
  stop : Nat
  parent : Option Nat
  children : List Nat
  deriving DecidableEq, Repr

def Node.cell (n : Node) : Cell :=
  ⟨n.kind, n.start, n.stop, n.parent, n.children⟩

/-- The table of the nodes of a tree. -/
def Chunk.cells (c : Chunk) : List Cell :=
  c.nodes.map Node.cell

/-! ## Spans -/

/-- Spans that cover a stretch of the line side by side, without a gap. -/
def Tiles (start : Nat) : List Cell → Nat → Prop
  | [], stop => start = stop
  | n :: ns, stop => n.start = start ∧ Tiles n.stop ns stop

lemma tiles_append_iff {i k : Nat} {ms ns : List Cell} :
    Tiles i (ms ++ ns) k ↔ ∃ j, Tiles i ms j ∧ Tiles j ns k := by
  induction ms generalizing i with
  | nil => simp [Tiles]
  | cons m ms ih => simp [Tiles, ih, and_assoc]

/-! ## Numbers -/

mutual

/-- The numbers met on the way through a table from a node on: its own first, then those of the
nodes inside it. -/
inductive Walk (t : List Cell) : Nat → List Nat → Prop
  | node {i : Nat} {n : Cell} {w : List Nat} :
      t[i]? = some n → WalkAll t n.children w → Walk t i (i :: w)

/-- The numbers met on the way through several nodes, one after another. -/
inductive WalkAll (t : List Cell) : List Nat → List Nat → Prop
  | nil : WalkAll t [] []
  | cons {j : Nat} {js v w : List Nat} :
      Walk t j v → WalkAll t js w → WalkAll t (j :: js) (v ++ w)

end

/-! ## Trees -/

/-- A table that is a tree over a line. -/
structure IsTree (line : List Char) (t : List Cell) : Prop where
  /-- The first node is the root and covers the line. -/
  root : ∃ r, t[0]? = some r ∧ r.kind = .chunk ∧ r.start = 0 ∧ r.stop = byteSize line ∧
    r.parent = none
  /-- Every other node stands once among the children of an earlier one. -/
  parent : ∀ (i : Nat) (n : Cell), t[i]? = some n → i ≠ 0 →
    ∃ j m, n.parent = some j ∧ t[j]? = some m ∧ j < i ∧ m.children.count i = 1
  /-- Children know their parent. -/
  child : ∀ (j : Nat) (m : Cell), t[j]? = some m →
    ∀ i ∈ m.children, ∃ n, t[i]? = some n ∧ n.parent = some j
  /-- The walk from the root meets the nodes in the order of their numbers. -/
  preorder : Walk t 0 (List.range t.length)
  /-- Where a node has children, their spans tile its own. -/
  tiled : ∀ m ∈ t, m.children ≠ [] →
    ∃ ns : List Cell, m.children.map (t[·]?) = ns.map some ∧ Tiles m.start ns m.stop

end LineShell
