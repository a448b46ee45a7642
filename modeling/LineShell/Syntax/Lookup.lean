import LineShell.Syntax.Node

/-!
# Finding the node at a position

A cursor stands between two characters.  The node it belongs to is found from the root down: at
each level the first part that the position touches, ends included.

* **`Chunk.leafAt`** — the node at a position; the root where no part is touched.
-/

namespace LineShell

/-- The node at a position inside a form, the form being touched. -/
def FormPart.leafAt (f : Placed Form) (p : Placed FormPart) (pos : Nat) : Node :=
  match p.item with
  | .space _ => .formPart f p
  | .word w =>
    match (Compound.placed (p.withItem w)).find? (·.touches pos) with
    | none => .formPart f p
    | some q => .primary f (p.withItem w) q

/-- The node at a position inside a touched part of a chunk. -/
def ChunkPart.leafAt (p : Placed ChunkPart) (pos : Nat) : Node :=
  match p.item with
  | .separator _ => .part p
  | .form f =>
    match (Form.placed (p.withItem f)).find? (·.touches pos) with
    | none => .part p
    | some q => FormPart.leafAt (p.withItem f) q pos

/-- The node at a position of the line. -/
def Chunk.leafAt (c : Chunk) (pos : Nat) : Node :=
  match c.placed.find? (·.touches pos) with
  | none => .chunk c
  | some p => ChunkPart.leafAt p pos

end LineShell
