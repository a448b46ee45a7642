import LineShell.Text.Alphanumeric
import LineShell.Text.Bytes

/-!
# Word segments

A word on a line is made of adjacent segments: bare text, a quoted string or a reference to
a variable.  This module has the character classes that tell them apart, the segments themselves,
and the scanner that takes one segment off the front of a line.

* `Primary` — a segment; `Primary.text` is how it stands on the line, `Primary.value` what it
  means.
* `scanQuoted` — the inside of a quoted string, which ends at its closing quote or with the line.
* **`Primary.scan`** — the segment that starts at a character.  `Primary.scan_text_append` says
  that nothing of the line is lost, `Primary.scan_rest_length_le` that the scanner goes forward.
-/

namespace LineShell

/-! ## Character classes -/

/-- The blanks between words. -/
def isSpace (c : Char) : Bool :=
  c == ' ' || c == '\t' || c == '\r'

/-- The characters that end a statement. -/
def isTerminator (c : Char) : Bool :=
  c == ';' || c == '\n'

/-- The characters that a variable name may hold. -/
def isVariableChar (c : Char) : Bool :=
  Text.isAlphanumeric c || c == '_' || c == '-' || c == ':'

/-- The characters that stand for themselves in a word. -/
def isBareChar (c : Char) : Bool :=
  !(isSpace c || isTerminator c || c == '\'' || c == '"' || c == '$')

/-! ## Segments -/

inductive PrimaryKind where
  | bareword
  | singleQuoted
  | doubleQuoted
  | reference
  deriving DecidableEq, Repr

/-- A segment of a word.  A quoted string keeps what stands between its quotes, escapes and all,
and whether its closing quote is there: an unclosed string runs to the end of the line. -/
inductive Primary where
  | bareword (text : List Char)
  | singleQuoted (body : List Char) (closed : Bool)
  | doubleQuoted (body : List Char) (closed : Bool)
  | reference (name : List Char)
  deriving DecidableEq, Repr

namespace Primary

def kind : Primary → PrimaryKind
  | bareword _ => .bareword
  | singleQuoted _ _ => .singleQuoted
  | doubleQuoted _ _ => .doubleQuoted
  | reference _ => .reference

def closing (q : Char) : Bool → List Char
  | true => [q]
  | false => []

/-- A body between quotes as it stands on the line. -/
def quote (q : Char) (body : List Char) (closed : Bool) : List Char :=
  q :: (body ++ closing q closed)

/-- A segment as it stands on the line. -/
def text : Primary → List Char
  | bareword t => t
  | singleQuoted body closed => quote '\'' body closed
  | doubleQuoted body closed => quote '"' body closed
  | reference name => '$' :: name

/-- Whether the segment ends where it ends for a reason of its own: every segment but a string
without its closing quote. -/
def isClosed : Primary → Bool
  | singleQuoted _ closed => closed
  | doubleQuoted _ closed => closed
  | _ => true

/-- Resolves the escapes of a double-quoted string: `\n`, `\t`, `\\` and `\"`.  Any other pair
stands for itself, and so does a lone backslash at the end. -/
def unescape : List Char → List Char
  | [] => []
  | '\\' :: 'n' :: cs => '\n' :: unescape cs
  | '\\' :: 't' :: cs => '\t' :: unescape cs
  | '\\' :: '\\' :: cs => '\\' :: unescape cs
  | '\\' :: '"' :: cs => '"' :: unescape cs
  | '\\' :: c :: cs => '\\' :: c :: unescape cs
  | c :: cs => c :: unescape cs

def dropFinalQuote (q : Char) (cs : List Char) : List Char :=
  if cs.getLast? = some q then cs.dropLast else cs

/-- What a segment means: the text between the quotes with its escapes resolved, or the name of
the variable.  One quote at the very end of the text counts as the closing one, also where it is
the escaped last character of an unclosed string. -/
def value : Primary → List Char
  | bareword t => t
  | singleQuoted body closed => if closed then body else dropFinalQuote '\'' body
  | doubleQuoted body closed => unescape (if closed then body else dropFinalQuote '"' body)
  | reference name => name

/-! ## Scanning -/

/-- What follows an opening quote: the body, whether the closing quote was met, and the rest of
the line. -/
structure Quoted where
  body : List Char
  closed : Bool
  rest : List Char
  deriving DecidableEq, Repr

def Quoted.cons (cs : List Char) (s : Quoted) : Quoted :=
  { s with body := cs ++ s.body }

@[simp] theorem Quoted.body_cons (cs : List Char) (s : Quoted) : (s.cons cs).body = cs ++ s.body :=
  rfl

@[simp] theorem Quoted.closed_cons (cs : List Char) (s : Quoted) : (s.cons cs).closed = s.closed :=
  rfl

@[simp] theorem Quoted.rest_cons (cs : List Char) (s : Quoted) : (s.cons cs).rest = s.rest :=
  rfl

/-- Scans the inside of a string quoted by `q`.  With `escapes`, a backslash takes the next
character with it. -/
def scanQuoted (q : Char) (escapes : Bool) : List Char → Quoted
  | [] => ⟨[], false, []⟩
  | [c] => if c = q then ⟨[], true, []⟩ else ⟨[c], false, []⟩
  | c :: d :: cs =>
    if escapes && c == '\\' then (scanQuoted q escapes cs).cons [c, d]
    else if c = q then ⟨[], true, d :: cs⟩
    else (scanQuoted q escapes (d :: cs)).cons [c]

/-- The segment that begins with `c`, and the rest of the line after it. -/
def scan (c : Char) (cs : List Char) : Primary × List Char :=
  if c = '\'' then
    let s := scanQuoted '\'' false cs
    (singleQuoted s.body s.closed, s.rest)
  else if c = '"' then
    let s := scanQuoted '"' true cs
    (doubleQuoted s.body s.closed, s.rest)
  else if c = '$' then
    (reference (cs.takeWhile isVariableChar), cs.dropWhile isVariableChar)
  else
    (bareword (c :: cs.takeWhile isBareChar), cs.dropWhile isBareChar)

/-- A scanned string gives back the line it was scanned from. -/
theorem scanQuoted_append (q : Char) (e : Bool) (cs : List Char) :
    (scanQuoted q e cs).body ++ closing q (scanQuoted q e cs).closed ++ (scanQuoted q e cs).rest
      = cs := by
  fun_induction scanQuoted q e cs with
  | case1 => rfl
  | case2 => simp [closing]
  | case3 => simp [closing]
  | case4 c d cs h ih => simpa using ih
  | case5 c d cs => simp [closing]
  | case6 c d cs he hq ih => simpa using ih

/-- Nothing of the line is lost. -/
theorem scan_text_append (c : Char) (cs : List Char) :
    (scan c cs).1.text ++ (scan c cs).2 = c :: cs := by
  unfold scan
  split
  · next h => simpa [text, quote, h] using scanQuoted_append '\'' false cs
  · split
    · next h => simpa [text, quote, h] using scanQuoted_append '"' true cs
    · split
      · next h => simp [text, h]
      · simp [text]

/-- A segment holds at least its first character. -/
theorem scan_text_length_pos (c : Char) (cs : List Char) : 0 < (scan c cs).1.text.length := by
  unfold scan
  split
  · simp [text, quote]
  · split
    · simp [text, quote]
    · split <;> simp [text]

/-- The scanner goes forward: the rest is no longer than what follows the first character. -/
theorem scan_rest_length_le (c : Char) (cs : List Char) : (scan c cs).2.length ≤ cs.length := by
  have h := congrArg List.length (scan_text_append c cs)
  have hp := scan_text_length_pos c cs
  simp only [List.length_append, List.length_cons] at h
  omega

end Primary

end LineShell
