import LineShell.Syntax.Lookup

/-!
# What is being completed

A classifier looks at the node under the cursor and recognises one shape that can be completed.
It says what has been typed of the token already, the *head*, or nothing: most nodes have another
shape.

* `Context` — a recognised shape with its node and head; `Context.insertAt` is where the rest of
  the token goes.
* `Context.reference`, `Context.newCommand`, `Context.commandHead`, `Context.newArgument`,
  `Context.argument` — the five classifiers.
* **`ContextKind.classify`** — the classifier of each kind.
-/

namespace LineShell

/-- The shapes that completion knows how to complete. -/
inductive ContextKind where
  | reference
  /-- The start of a command, nothing typed yet. -/
  | newCommand
  /-- A command name typed in part. -/
  | commandHead
  /-- After a command, nothing typed yet. -/
  | newArgument
  | argument
  deriving DecidableEq, Repr

/-- What is being completed: the node under the cursor, what it holds of the token, and the byte
it ends at. -/
structure Context where
  kind : ContextKind
  node : Nat
  head : String
  stop : Nat
  deriving DecidableEq, Repr

namespace Context

/-- The context of one kind for a node. -/
def ofNode (kind : ContextKind) (n : Node) (head : List Char) : Context :=
  ⟨kind, n.id, String.ofList head, n.stop⟩

/-- Where the missing part of the token is inserted.  A token is extended at its end, wherever the
cursor stands in it; a new word starts at the cursor. -/
def insertAt (ctx : Context) (cursor : Nat) : Nat :=
  match ctx.kind with
  | .newCommand | .newArgument => cursor
  | .reference | .commandHead | .argument => ctx.stop

end Context

namespace Node

/-- The word around a node and its text, if the node is bare text and the word is nothing else. -/
def simpleCompound : Node → Option (Placed Compound × List Char)
  | .primary _ w ⟨_, _, _, .bareword t⟩ =>
    if w.item.primaries.length = 1 then some (w, t) else none
  | _ => none

def isFormHead : Node → Bool
  | .formPart _ p => p.index == 0
  | _ => false

end Node

namespace Context

/-- A reference to a variable; the head is the name without its sigil. -/
def reference : Node → Option Context
  | n@(.primary _ _ ⟨_, _, _, .reference name⟩) => some (ofNode .reference n name)
  | _ => none

/-- A place where a command would start: the line itself, or a part of it between or around
statements. -/
def newCommand : Node → Option Context
  | n@(.chunk _) | n@(.part _) => some (ofNode .newCommand n [])
  | _ => none

/-- A command name typed in part: the sole bare text of a form's first word. -/
def commandHead (n : Node) : Option Context :=
  match n.simpleCompound with
  | some (w, head) => if w.index = 0 then some (ofNode .commandHead n head) else none
  | none => none

/-- The blanks after a word, where an argument would start. -/
def newArgument : Node → Option Context
  | n@(.formPart _ ⟨_, _, _, .space _⟩) => some (ofNode .newArgument n [])
  | _ => none

/-- An argument typed in part: the sole bare text of a word that is not its form's first. -/
def argument (n : Node) : Option Context :=
  match n.simpleCompound with
  | some (w, head) => if w.index = 0 then none else some (ofNode .argument n head)
  | none => none

end Context

/-- The classifier that recognises a kind of context. -/
def ContextKind.classify : ContextKind → Node → Option Context
  | .reference => Context.reference
  | .newCommand => Context.newCommand
  | .commandHead => Context.commandHead
  | .newArgument => Context.newArgument
  | .argument => Context.argument

end LineShell
