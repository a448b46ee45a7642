import LineShell.Toml.Scalar
import LineShell.Toml.Table
import LineShell.Toml.Token

/-!
# Reading TOML

The tokens of a document are taken one by one.  What is open at a moment — a key, a header, the
arrays and tables around a value — is kept as data, so that reading is a fold.

* `DottedKey` — a key of which the front has been read.
* `Frame`, `ReaderState` — what is open.
* `ReaderState.step` — one token.
* **`read`** — the table that a text stands for.
-/

namespace LineShell.Toml

/-! ## Keys -/

def isKeyChar (c : Char) : Bool :=
  c.isAlphanum || c == '_' || c == '-'

/-- The number of names in a key, and of arrays and tables that may be open within each other. -/
def maxNesting : Nat := 80

/-- The names of a key as far as they have been read, and whether a name has to come next. -/
structure DottedKey where
  names : List String
  wantsName : Bool
  deriving DecidableEq, Repr

namespace DottedKey

def start : DottedKey :=
  ⟨[], true⟩

def addName (k : DottedKey) (name : List Char) : Option DottedKey :=
  if k.wantsName ∧ k.names.length < maxNesting then
    some ⟨k.names ++ [String.ofList name], false⟩
  else none

def addDot (k : DottedKey) : Option DottedKey :=
  if k.wantsName then none else some ⟨k.names, true⟩

/-- Adds a bare name, or nothing where two dots or a dot and something else meet. -/
def addPart (k : DottedKey) (part : List Char) : Option DottedKey :=
  if part = [] then some k
  else if part.all isKeyChar then k.addName part
  else none

/-- Adds the parts of a word, with a dot before each. -/
def addParts (k : DottedKey) : List (List Char) → Option DottedKey
  | [] => some k
  | part :: parts => k.addDot.bind fun k => (k.addPart part).bind fun k => k.addParts parts

/-- Adds a word, in which dots separate bare names. -/
def addWord (k : DottedKey) (word : List Char) : Option DottedKey :=
  match word.splitOn '.' with
  | [] => none
  | part :: parts => (k.addPart part).bind fun k => k.addParts parts

def add (k : DottedKey) : Token → Option DottedKey
  | .blank _ => some k
  | .word w => k.addWord w
  | .string s false => k.addName s
  | _ => none

/-- The names of a key that may end here. -/
def finish (k : DottedKey) : Option (List String) :=
  if k.wantsName then none else some k.names

end DottedKey

/-! ## What is open -/

/-- What a value is for. -/
inductive Frame where
  | line (path : List String)
  | array (items : List Value)
  | table (entries : Entries) (path : List String)

/-- Where the reader stands. -/
inductive ReaderState where
  | lineStart
  /-- After the end of an assignment or a header. -/
  | lineEnd
  | key (k : DottedKey)
  /-- Directly after the bracket that begins a header. -/
  | bracket
  | header (inArray : Bool) (k : DottedKey)
  /-- Directly after the first of the two brackets that end a header. -/
  | headerEnd (path : List String)
  | value (stack : List Frame)
  /-- In an array, before an item or its end. -/
  | item (items : List Value) (stack : List Frame)
  | itemEnd (items : List Value) (stack : List Frame)
  /-- In a table between braces, before a key or its end. -/
  | entry (entries : Entries) (stack : List Frame)
  | entryKey (entries : Entries) (k : DottedKey) (stack : List Frame)
  /-- After a line end behind a key between braces: the key cannot go on. -/
  | entryEquals (entries : Entries) (path : List String) (stack : List Frame)
  | entryEnd (entries : Entries) (stack : List Frame)

/-- The document up to here, and where the reader stands. -/
structure Reader where
  document : Document
  state : ReaderState

namespace Reader

/-- The same document, with the reader elsewhere. -/
def go (r : Reader) (state : ReaderState) : Option Reader :=
  some { r with state }

/-- Puts a value where it belongs. -/
def finish (r : Reader) (v : Value) : List Frame → Option Reader
  | [] => none
  | .line path :: _ => some ⟨r.document.add ⟨path, v⟩, .lineEnd⟩
  | .array items :: stack => r.go (.itemEnd (items ++ [v]) stack)
  | .table entries path :: stack =>
    (assign v path entries).bind fun entries => r.go (.entryEnd entries stack)

/-- Begins a value, or reads all of it. -/
def begin (r : Reader) (stack : List Frame) : Token → Option Reader
  | .word w => (scalar? w).bind fun v => r.finish v stack
  | .string s _ => r.finish (.string (String.ofList s)) stack
  | .openBracket => if stack.length ≤ maxNesting then r.go (.item [] stack) else none
  | .openBrace => if stack.length ≤ maxNesting then r.go (.entry [] stack) else none
  | _ => none

def step (r : Reader) (t : Token) : Option Reader :=
  match r.state, t with
  | .lineStart, .blank _ | .lineStart, .newline => some r
  | .lineStart, .openBracket => r.go .bracket
  | .lineStart, t => (DottedKey.start.add t).bind fun k => r.go (.key k)
  | .lineEnd, .blank _ => some r
  | .lineEnd, .newline => r.go .lineStart
  | .lineEnd, _ => none
  | .key k, .equals => k.finish.bind fun path => r.go (.value [.line path])
  | .key k, t => (k.add t).bind fun k => r.go (.key k)
  | .bracket, .openBracket => r.go (.header true .start)
  | .bracket, t => (DottedKey.start.add t).bind fun k => r.go (.header false k)
  | .header false k, .closeBracket =>
    k.finish.map fun path => ⟨r.document.addSection false path, .lineEnd⟩
  | .header true k, .closeBracket => k.finish.bind fun path => r.go (.headerEnd path)
  | .header inArray k, t => (k.add t).bind fun k => r.go (.header inArray k)
  | .headerEnd path, .closeBracket => some ⟨r.document.addSection true path, .lineEnd⟩
  | .headerEnd _, _ => none
  | .value _, .blank _ => some r
  | .value (.table _ _ :: _), .newline => some r
  | .value stack, t => r.begin stack t
  | .item _ _, .blank _ | .item _ _, .newline => some r
  | .item items stack, .closeBracket => r.finish (.array false items) stack
  | .item items stack, t => r.begin (.array items :: stack) t
  | .itemEnd _ _, .blank _ | .itemEnd _ _, .newline => some r
  | .itemEnd items stack, .comma => r.go (.item items stack)
  | .itemEnd items stack, .closeBracket => r.finish (.array false items) stack
  | .itemEnd _ _, _ => none
  | .entry _ _, .blank _ | .entry _ _, .newline => some r
  | .entry entries stack, .closeBrace => r.finish (.table .inline entries) stack
  | .entry entries stack, t =>
    (DottedKey.start.add t).bind fun k => r.go (.entryKey entries k stack)
  | .entryKey entries k stack, .equals =>
    k.finish.bind fun path => r.go (.value (.table entries path :: stack))
  | .entryKey entries k stack, .newline =>
    k.finish.bind fun path => r.go (.entryEquals entries path stack)
  | .entryKey entries k stack, t => (k.add t).bind fun k => r.go (.entryKey entries k stack)
  | .entryEquals _ _ _, .blank _ | .entryEquals _ _ _, .newline => some r
  | .entryEquals entries path stack, .equals =>
    r.go (.value (.table entries path :: stack))
  | .entryEquals _ _ _, _ => none
  | .entryEnd _ _, .blank _ | .entryEnd _ _, .newline => some r
  | .entryEnd entries stack, .comma => r.go (.entry entries stack)
  | .entryEnd entries stack, .closeBrace => r.finish (.table .inline entries) stack
  | .entryEnd _ _, _ => none

/-- The document, where it may end here. -/
def document? (r : Reader) : Option Document :=
  match r.state with
  | .lineStart | .lineEnd => some r.document
  | _ => none

end Reader

/-! ## Documents -/

/-- A day, a single space and a time make one word. -/
def joinDates : List Token → List Token
  | .word day :: .blank c :: .word time :: ts =>
    if c = ' ' ∧ afterDay? day = some [] ∧ time.head?.any (isDigitOf 10) then
      .word (day ++ c :: time) :: joinDates ts
    else .word day :: .blank c :: joinDates (.word time :: ts)
  | t :: ts => t :: joinDates ts
  | [] => []

def Document.ofTokens? (ts : List Token) : Option Document :=
  (ts.foldlM Reader.step ⟨.empty, .lineStart⟩).bind Reader.document?

/-- **The table that a text stands for**, or nothing where the text is not TOML. -/
def read (text : List Char) : Option Entries :=
  (documentText text).bind fun cs => (lex cs).bind fun ts =>
    (Document.ofTokens? (joinDates ts)).bind Document.toTable

end LineShell.Toml
