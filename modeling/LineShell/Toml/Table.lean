import LineShell.Toml.Value

/-!
# Growing tables

A document is a row of assignments, each under a header or before the first one.  Keys and headers
are paths through tables; what is on the way is made where it is missing, and may only be entered
where its kind allows it.

* `alter` — changes the value of one key, or refuses.
* **`assign`** — gives the value at a path, without overwriting anything.
* **`openTable`** — the table of a header, filled by the assignments under it.
* `Document`, `Document.toTable` — a whole document.
-/

namespace LineShell.Toml

/-- Changes what a key stands for; the key comes last where it is new. -/
def alter (key : String) (change : Option Value → Option Value) : Entries → Option Entries
  | [] => (change none).map fun v => [(key, v)]
  | e :: es =>
    if key = e.1 then (change (some e.2)).map fun v => (key, v) :: es
    else (alter key change es).map (e :: ·)

/-- Changes the table that is last in a row of tables. -/
def alterLast (change : Entries → Option Entries) : List Value → Option (List Value)
  | [] => none
  | [.table kind es] => (change es).map fun es => [.table kind es]
  | [_] => none
  | v :: vs => (alterLast change vs).map (v :: ·)

/-- Gives the value at a path, whose keys but the last make a table by dots.  Such a table may only
be entered as long as it is open to dots, and nothing is given a value twice. -/
def assign (value : Value) : List String → Entries → Option Entries
  | [], _ => none
  | [key], es => alter key (fun old => if old.isNone then some value else none) es
  | key :: next :: path, es => es |> alter key fun
    | none => (assign value (next :: path) []).map (.table .dotted)
    | some (.table .dotted inner) => (assign value (next :: path) inner).map (.table .dotted)
    | some (.table .implied inner) =>
      if path = [] then none else (assign value (next :: path) inner).map (.table .implied)
    | some (.array true tables) =>
      if path = [] then none
      else (alterLast (assign value (next :: path)) tables).map (.array true)
    | some _ => none

structure Assignment where
  path : List String
  value : Value

/-- The table after a row of assignments. -/
def assignAll (as : List Assignment) (es : Entries) : Option Entries :=
  as.foldlM (fun es a => assign a.value a.path es) es

/-- The table of a header: a new one, or one that longer headers have only implied.  A header in
double brackets adds a table to a row of tables instead. -/
def openTable (inArray : Bool) (fill : Entries → Option Entries) :
    List String → Entries → Option Entries
  | [], _ => none
  | [key], es => es |> alter key fun old =>
    match inArray, old with
    | true, none => (fill []).map fun t => .array true [.table .explicit t]
    | true, some (.array true tables) =>
      (fill []).map fun t => .array true (tables ++ [.table .explicit t])
    | false, none => (fill []).map (.table .explicit)
    | false, some (.table .implied inner) => (fill inner).map (.table .explicit)
    | _, some _ => none
  | key :: next :: path, es => es |> alter key fun
    | none => (openTable inArray fill (next :: path) []).map (.table .implied)
    | some (.table .inline _) => none
    | some (.table kind inner) => (openTable inArray fill (next :: path) inner).map (.table kind)
    | some (.array true tables) =>
      (alterLast (openTable inArray fill (next :: path)) tables).map (.array true)
    | some _ => none

structure Section where
  inArray : Bool
  path : List String
  assignments : List Assignment

/-- A whole document: the assignments before the first header, and the sections. -/
structure Document where
  top : List Assignment
  sections : List Section

namespace Document

def empty : Document :=
  ⟨[], []⟩

/-- The table that a document stands for. -/
def toTable (d : Document) : Option Entries :=
  (assignAll d.top []).bind fun es =>
    d.sections.foldlM (fun es s => openTable s.inArray (assignAll s.assignments) s.path es) es

/-- The document with a further header at its end. -/
def addSection (inArray : Bool) (path : List String) (d : Document) : Document :=
  { d with sections := d.sections ++ [⟨inArray, path, []⟩] }

/-- A row of sections with an assignment at the end of the last; none where there is no section. -/
def addToLast (a : Assignment) : List Section → Option (List Section)
  | [] => none
  | [s] => some [{ s with assignments := s.assignments ++ [a] }]
  | s :: ss => (addToLast a ss).map (s :: ·)

/-- The document with a further assignment at its end. -/
def add (a : Assignment) (d : Document) : Document :=
  match addToLast a d.sections with
  | some sections => { d with sections }
  | none => { d with top := d.top ++ [a] }

end Document

end LineShell.Toml
