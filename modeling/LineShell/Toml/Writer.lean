import LineShell.Toml.Value

/-!
# Writing TOML

Settings are written as sections of assignments, one to a line, each in the plainest form that its
value has.

* `Quoting` — the four forms of a string; `Quoting.choose` picks the plainest one that can hold
  a text with as few escapes as possible.
* `writeString` — a string.
* `Plain` — the values that are written; `Plain.toValue` is what each of them stands for.
* **`writeSections`** — a document.
-/

namespace LineShell.Toml

/-! ## Strings -/

/-- The forms of a string. -/
inductive Quoting where
  | basic
  | literal
  | multilineBasic
  | multilineLiteral
  deriving DecidableEq, Repr

/-- The control characters that stand for themselves in no form. -/
def isControl (c : Char) : Bool :=
  (c.toNat < 0x20 && c != '\t' && c != '\n') || c == '\x7f'

def longestRun (q : Char) (cs : List Char) : Nat :=
  ((cs.splitOnP (· != q)).map List.length).foldl max 0

/-- The plainest form for a text.  A single line comes before several, and double quotes before
single ones; escapes are used only where no form does without them. -/
def Quoting.choose (cs : List Char) : Quoting :=
  let control := cs.any isControl
  let backslash := cs.contains '\\'
  let newline := cs.contains '\n'
  if !control && !backslash && !newline && longestRun '"' cs = 0 then .basic
  else if !control && !newline && longestRun '\'' cs = 0 then .literal
  else if !control && !backslash && longestRun '"' cs ≤ 2 then .multilineBasic
  else if !control && longestRun '\'' cs ≤ 2 then .multilineLiteral
  else if newline then .multilineBasic
  else .basic

/-- The digit for a number below sixteen. -/
def hexDigit (n : Nat) : Char :=
  Nat.digitChar n |>.toUpper

/-- A character other than a double quote between double quotes. -/
def escapeChar (multiline : Bool) (c : Char) : List Char :=
  if c = '\x08' then ['\\', 'b']
  else if c = '\t' then ['\\', 't']
  else if c = '\n' then if multiline then ['\n'] else ['\\', 'n']
  else if c = '\x0c' then ['\\', 'f']
  else if c = '\r' then ['\\', 'r']
  else if c = '\\' then ['\\', '\\']
  else if isControl c then
    ['\\', 'u', '0', '0', hexDigit (c.toNat / 16), hexDigit (c.toNat % 16)]
  else [c]

/-- A text between double quotes, after a run of so many double quotes.  On several lines up to two
of them may stand together. -/
def escapeFrom (multiline : Bool) : Nat → List Char → List Char
  | _, [] => []
  | run, c :: cs =>
    if c = '"' then
      if (if multiline then 2 else 0) ≤ run then '\\' :: '"' :: escapeFrom multiline 0 cs
      else '"' :: escapeFrom multiline (run + 1) cs
    else escapeChar multiline c ++ escapeFrom multiline 0 cs

/-- The line end after opening quotes, without which the first line end of the text itself would be
left out. -/
def openingLineEnd (cs : List Char) : List Char :=
  if cs.contains '\n' then ['\n'] else []

/-- A text as a string of a form. -/
def Quoting.write (cs : List Char) : Quoting → List Char
  | basic => '"' :: (escapeFrom false 0 cs ++ ['"'])
  | literal => '\'' :: (cs ++ ['\''])
  | multilineBasic =>
    ['"', '"', '"'] ++ openingLineEnd cs ++ escapeFrom true 0 cs ++ ['"', '"', '"']
  | multilineLiteral =>
    ['\'', '\'', '\''] ++ openingLineEnd cs ++ cs ++ ['\'', '\'', '\'']

def writeString (cs : List Char) : List Char :=
  (Quoting.choose cs).write cs

/-! ## Documents -/

/-- A value of the kinds that settings have. -/
inductive Plain where
  | string (s : String)
  | size (n : Nat)
  | flag (b : Bool)
  deriving DecidableEq, Repr

namespace Plain

/-- The value that is meant. -/
def toValue : Plain → Value
  | string s => .string s
  | size n => .integer n
  | flag b => .boolean b

def write : Plain → List Char
  | string s => writeString s.toList
  | size n => Nat.toDigits 10 n
  | flag true => "true".toList
  | flag false => "false".toList

end Plain

def writeAssignment (a : String × Plain) : List Char :=
  a.1.toList ++ [' ', '=', ' '] ++ a.2.write ++ ['\n']

def writeSection (s : String × List (String × Plain)) : List Char :=
  '[' :: (s.1.toList ++ [']', '\n'] ++ s.2.flatMap writeAssignment)

def writeSections : List (String × List (String × Plain)) → List Char
  | [] => []
  | [s] => writeSection s
  | s :: ss => writeSection s ++ '\n' :: writeSections ss

end LineShell.Toml
