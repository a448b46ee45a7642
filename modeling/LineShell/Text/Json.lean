import LineShell.Text.Quoted

/-!
# JSON

Reports can be printed as JSON, laid out on several lines for a human reader.

* `Json` — the values that reports are made of.
* **`Json.pretty`** — a value as text, indented by two blanks for each level.
-/

namespace LineShell.Text

/-- A JSON value, without numbers and truth values. -/
inductive Json where
  | null
  | string (s : String)
  | array (items : List Json)
  | object (fields : List (String × Json))

namespace Json

/-- A character of a string. -/
def escape (c : Char) : List Char :=
  match c with
  | '"' => ['\\', '"']
  | '\\' => ['\\', '\\']
  | '\x08' => ['\\', 'b']
  | '\t' => ['\\', 't']
  | '\n' => ['\\', 'n']
  | '\x0c' => ['\\', 'f']
  | '\r' => ['\\', 'r']
  | c => if c.toNat < 0x20 then ['\\', 'u'] ++ hexDigits 4 c.toNat else [c]

def writeString (s : String) : List Char :=
  '"' :: (s.toList.flatMap escape ++ ['"'])

/-- The start of a line at a level. -/
def lineStart (level : Nat) : List Char :=
  '\n' :: List.replicate (2 * level) ' '

/-- Parts between brackets, each on lines of its own; without parts the brackets stand together. -/
def enclose (opening closing : Char) (level : Nat) (parts : List (List Char)) : List Char :=
  match parts with
  | [] => [opening, closing]
  | parts =>
    let lines := parts.map (lineStart (level + 1) ++ ·)
    opening :: ([','].intercalate lines ++ lineStart level ++ [closing])

mutual

/-- A value at a level. -/
def write : Json → Nat → List Char
  | null, _ => "null".toList
  | string s, _ => writeString s
  | array items, level => enclose '[' ']' level (writeItems items (level + 1))
  | object fields, level => enclose '\x7b' '\x7d' level (writeFields fields (level + 1))

def writeItems : List Json → Nat → List (List Char)
  | [], _ => []
  | item :: items, level => item.write level :: writeItems items level

def writeFields : List (String × Json) → Nat → List (List Char)
  | [], _ => []
  | (key, value) :: fields, level =>
    (writeString key ++ ": ".toList ++ value.write level) :: writeFields fields level

end

def pretty (j : Json) : String :=
  String.ofList (j.write 0)

end Json

end LineShell.Text
