/-!
# Values of TOML

* `Value` — what a key of a document stands for; `Value.isReadable` — whether all numbers in it are
  of a size that can be read.
* `TableKind` — how a table came to be, which decides how it may grow.
* `lookup?` — the value of a key in a table.
-/

namespace LineShell.Toml

/-- How a table came to be. -/
inductive TableKind where
  /-- Under a header of its own; nothing may be added from elsewhere but further tables. -/
  | explicit
  /-- On the way to the table of a longer header. -/
  | implied
  /-- By a key with dots; more keys with dots may add to it. -/
  | dotted
  | inline
  deriving DecidableEq, Repr

/-- A value.  Of a number with a fraction only whether it fits into 64 bits is kept, and of a date
only the kind. -/
inductive Value where
  | string (s : String)
  | integer (n : Int)
  | float (fits : Bool)
  | boolean (b : Bool)
  | date
  /-- Items between brackets, or else the tables under headers of one name. -/
  | array (ofTables : Bool) (items : List Value)
  | table (kind : TableKind) (entries : List (String × Value))

/-- The keys of a table with their values, each key once. -/
abbrev Entries := List (String × Value)

/-! ## Sizes of numbers

A number of any size makes a document; what cannot be represented is only refused when it is read.
-/

/-- The whole numbers that can be read: those of 128 bits, with a sign or without. -/
def isReadableInteger (n : Int) : Bool :=
  -Int.pow 2 127 ≤ n && n < Int.pow 2 128

mutual

/-- Whether all numbers in a value can be read. -/
def Value.isReadable : Value → Bool
  | .integer n => isReadableInteger n
  | .float fits => fits
  | .array _ items => itemsReadable items
  | .table _ entries => entriesReadable entries
  | .string _ | .boolean _ | .date => true

/-- Whether all numbers in a row of items can be read. -/
def itemsReadable : List Value → Bool
  | [] => true
  | v :: vs => v.isReadable && itemsReadable vs

/-- Whether all numbers in a table can be read. -/
def entriesReadable : List (String × Value) → Bool
  | [] => true
  | (_, v) :: es => v.isReadable && entriesReadable es

end

def lookup? (key : String) (es : Entries) : Option Value :=
  es.lookup key

end LineShell.Toml
