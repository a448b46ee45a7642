/-!
# Escapes in TOML strings

Between double quotes, a backslash starts an escape: a letter for a control character, a code point
in hexadecimal, or, in a string of several lines, the end of a line that is to be left out together
with the blanks after it.

* `isBlank`, `hexValue?`, `shortEscape?`, `codeLength?` — the characters that matter.
* `EscapeState` — what the characters read so far leave to be done.
* **`unescape`** — the text that is meant.
-/

namespace LineShell.Toml

/-- The blanks within a line.  A carriage return is one of them, because it only ever stands before
a line feed. -/
def isBlank (c : Char) : Bool :=
  c == ' ' || c == '\t' || c == '\r'

def hexValue? (c : Char) : Option Nat :=
  if '0' ≤ c ∧ c ≤ '9' then some (c.toNat - '0'.toNat)
  else if 'a' ≤ c ∧ c ≤ 'f' then some (c.toNat - 'a'.toNat + 10)
  else if 'A' ≤ c ∧ c ≤ 'F' then some (c.toNat - 'A'.toNat + 10)
  else none

/-- The character that a letter after a backslash stands for. -/
def shortEscape? : Char → Option Char
  | 'b' => some '\x08'
  | 't' => some '\t'
  | 'n' => some '\n'
  | 'f' => some '\x0c'
  | 'r' => some '\r'
  | 'e' => some '\x1b'
  | '"' => some '"'
  | '\\' => some '\\'
  | _ => none

/-- The number of hexadecimal digits that follow a letter after a backslash. -/
def codeLength? : Char → Option Nat
  | 'x' => some 2
  | 'u' => some 4
  | 'U' => some 8
  | _ => none

/-- The character with a code point, where there is one. -/
def charOfCode? (n : Nat) : Option Char :=
  if n.isValidChar then some (Char.ofNat n) else none

/-- Where the reader of a string stands. -/
inductive EscapeState where
  | plain
  | escape
  /-- In a code point, with so many digits to come after the next. -/
  | code (more value : Nat)
  /-- After a backslash and blanks, with the end of the line to come. -/
  | lineEnd
  /-- After a line end that is left out: blanks and further line ends go with it. -/
  | trim
  deriving DecidableEq, Repr

/-- The text that is meant by what stands between double quotes. -/
def unescape (multiline : Bool) : EscapeState → List Char → Option (List Char)
  | .plain, [] | .trim, [] => some []
  | .escape, [] | .code _ _, [] | .lineEnd, [] => none
  | .plain, c :: cs =>
    if c = '\\' then unescape multiline .escape cs
    else (unescape multiline .plain cs).map (c :: ·)
  | .escape, c :: cs =>
    match shortEscape? c with
    | some d => (unescape multiline .plain cs).map (d :: ·)
    | none =>
      match codeLength? c with
      | some n => unescape multiline (.code (n - 1) 0) cs
      | none =>
        if !multiline then none
        else if c = '\n' then unescape multiline .trim cs
        else if isBlank c then unescape multiline .lineEnd cs
        else none
  | .code more value, c :: cs =>
    match hexValue? c with
    | none => none
    | some d =>
      match more with
      | more + 1 => unescape multiline (.code more (16 * value + d)) cs
      | 0 =>
        match charOfCode? (16 * value + d) with
        | some e => (unescape multiline .plain cs).map (e :: ·)
        | none => none
  | .lineEnd, c :: cs =>
    if c = '\n' then unescape multiline .trim cs
    else if isBlank c then unescape multiline .lineEnd cs
    else none
  | .trim, c :: cs =>
    if c = '\n' || isBlank c then unescape multiline .trim cs
    else if c = '\\' then unescape multiline .escape cs
    else (unescape multiline .plain cs).map (c :: ·)

end LineShell.Toml
