import LineShell.Syntax.Tree

/-!
# The nodes of a tree

Seen as nodes, the tree of a line is numbered from the root on, parents before children and left
before right, and every node covers a range of bytes of the line.  Neither is stored: both follow
from where a part stands among its siblings.

* `Piece` — what the parts of all levels have in common: a text and a number of nodes;
  `Piece.total` counts the nodes of several.
* `arrange` — sets siblings side by side, each with its number, its place and its first byte.
* **`Node`** — a part of the tree together with the parts around it.
* **`Chunk.nodes`** — all nodes of a tree in the order of their numbers.
-/

namespace LineShell

/-- A part of the tree that covers a text and counts as a number of nodes. -/
class Piece (α : Type) where
  text : α → List Char
  count : α → Nat

/-- The number of nodes that parts count as, all together. -/
def Piece.total {α : Type} [Piece α] (as : List α) : Nat :=
  as.foldr (fun a n => Piece.count a + n) 0

instance : Piece Primary := ⟨Primary.text, fun _ => 1⟩

instance : Piece Compound := ⟨Compound.text, fun w => 1 + w.primaries.length⟩

instance : Piece FormPart where
  text := FormPart.text
  count
    | .word w => Piece.count w
    | .space _ => 1

instance : Piece Form := ⟨Form.text, fun f => 1 + Piece.total f.parts⟩

instance : Piece ChunkPart where
  text := ChunkPart.text
  count
    | .form f => Piece.count f
    | .separator _ => 1

/-! ## Placing siblings -/

/-- A part of the tree in its place: the number of its node, its position among its siblings and
its first byte. -/
structure Placed (α : Type) where
  id : Nat
  index : Nat
  start : Nat
  item : α
  deriving DecidableEq, Repr

namespace Placed

variable {α β : Type}

/-- Another part in the same place. -/
def withItem (p : Placed α) (b : β) : Placed β :=
  ⟨p.id, p.index, p.start, b⟩

variable [Piece α]

def stop (p : Placed α) : Nat :=
  p.start + byteSize (Piece.text p.item)

/-- Whether a position lies in the part or at one of its ends. -/
def touches (p : Placed α) (pos : Nat) : Bool :=
  p.start ≤ pos && pos ≤ p.stop

end Placed

/-- Sets parts side by side, the first with number `id`, position `index` and first byte
`start`. -/
def arrange {α : Type} [Piece α] (id index start : Nat) : List α → List (Placed α)
  | [] => []
  | a :: as => ⟨id, index, start, a⟩
      :: arrange (id + Piece.count a) (index + 1) (start + byteSize (Piece.text a)) as

def Chunk.placed (c : Chunk) : List (Placed ChunkPart) :=
  arrange 1 0 0 c.parts

def Form.placed (f : Placed Form) : List (Placed FormPart) :=
  arrange (f.id + 1) 0 f.start f.item.parts

def Compound.placed (w : Placed Compound) : List (Placed Primary) :=
  arrange (w.id + 1) 0 w.start w.item.primaries

/-! ## Nodes -/

inductive NodeKind where
  | chunk
  | form
  | compound
  | primary (kind : PrimaryKind)
  | separator
  deriving DecidableEq, Repr

/-- A node: a part of the tree in its place, and the parts that it stands in. -/
inductive Node where
  | chunk (c : Chunk)
  | part (p : Placed ChunkPart)
  | formPart (form : Placed Form) (p : Placed FormPart)
  | primary (form : Placed Form) (word : Placed Compound) (p : Placed Primary)
  deriving DecidableEq, Repr

namespace Node

/-- The number of a node, counted from the root on. -/
def id : Node → Nat
  | chunk _ => 0
  | part p => p.id
  | formPart _ p => p.id
  | primary _ _ p => p.id

def kind : Node → NodeKind
  | chunk _ => .chunk
  | part p => match p.item with
    | .form _ => .form
    | .separator _ => .separator
  | formPart _ p => match p.item with
    | .word _ => .compound
    | .space _ => .separator
  | primary _ _ p => .primary p.item.kind

/-- The part of the line that the node covers. -/
def text : Node → List Char
  | chunk c => c.text
  | part p => p.item.text
  | formPart _ p => p.item.text
  | primary _ _ p => p.item.text

def start : Node → Nat
  | chunk _ => 0
  | part p => p.start
  | formPart _ p => p.start
  | primary _ _ p => p.start

def stop (n : Node) : Nat :=
  n.start + byteSize n.text

/-- The number of the node around this one. -/
def parent : Node → Option Nat
  | chunk _ => none
  | part _ => some 0
  | formPart f _ => some f.id
  | primary _ w _ => some w.id

/-- The position of the node among the children of its parent. -/
def index : Node → Option Nat
  | chunk _ => none
  | part p => some p.index
  | formPart _ p => some p.index
  | primary _ _ p => some p.index

/-- The numbers of the nodes directly inside this one. -/
def children : Node → List Nat
  | chunk c => c.placed.map Placed.id
  | part p => match p.item with
    | .form f => (Form.placed (p.withItem f)).map Placed.id
    | .separator _ => []
  | formPart _ p => match p.item with
    | .word w => (Compound.placed (p.withItem w)).map Placed.id
    | .space _ => []
  | primary _ _ _ => []

/-- What the node means: the value of a segment, and the text of any other node. -/
def value : Node → List Char
  | primary _ _ p => p.item.value
  | n => n.text

end Node

/-- The nodes of a word, itself first. -/
def FormPart.nodes (f : Placed Form) (p : Placed FormPart) : List Node :=
  .formPart f p :: match p.item with
    | .word w => (Compound.placed (p.withItem w)).map (.primary f (p.withItem w))
    | .space _ => []

/-- The nodes of a part of a chunk, itself first. -/
def ChunkPart.nodes (p : Placed ChunkPart) : List Node :=
  .part p :: match p.item with
    | .form f => (Form.placed (p.withItem f)).flatMap (FormPart.nodes (p.withItem f))
    | .separator _ => []

/-- All nodes of a line in the order of their numbers. -/
def Chunk.nodes (c : Chunk) : List Node :=
  .chunk c :: c.placed.flatMap ChunkPart.nodes

end LineShell
