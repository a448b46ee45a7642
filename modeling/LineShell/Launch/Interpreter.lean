import LineShell.Text.Bytes

/-!
# The first line of a script

A file that starts with `#!` is a script: the rest of its first line names the program that runs it,
its interpreter, and perhaps one argument.  Only the beginning of the file is looked at, the
*window*; a shorter file is continued by NULs.

* `window` — the part of a file that is looked at.
* `Interpreter.ofLine?` — the interpreter that a line names.
* **`Interpreter.ofContent?`** — the interpreter of a script, if it is one.
-/

namespace LineShell

/-- What runs a script. -/
structure Interpreter where
  /-- The path of the interpreter as it is written. -/
  name : Bytes
  /-- All that follows the name, as a single argument. -/
  argument : Option Bytes
  deriving DecidableEq, Repr

namespace Interpreter

/-- The number of bytes that are looked at. -/
def windowSize : Nat := 256

/-- The beginning of a file, continued by NULs where the file is shorter. -/
def window (content : Bytes) : Bytes :=
  (content ++ List.replicate windowSize 0).take windowSize

/-- The bytes that stand between the parts of the line: space and tab. -/
def isSpace (b : UInt8) : Bool :=
  b == 0x20 || b == 0x09

/-- Whether the name of an interpreter ends before a byte. -/
def isEnd (b : UInt8) : Bool :=
  isSpace b || b == 0

def trimEnd (line : Bytes) : Bytes :=
  (line.reverse.dropWhile isSpace).reverse

/-- The interpreter that a line names.  What follows the name ends at a NUL. -/
def ofLine? (line : Bytes) : Option Interpreter :=
  match (trimEnd line).dropWhile isSpace with
  | [] => none
  | b :: bs =>
    let rest := b :: bs
    let argument := match rest.dropWhile (!isEnd ·) with
      | [] => none
      | stop :: more =>
        if stop = 0 then none else some ((more.dropWhile isSpace).takeWhile (· ≠ 0))
    some ⟨rest.takeWhile (!isEnd ·), argument⟩

/-- The interpreter of a script, by its content.  A line that goes on beyond the window is still
read up to there, as long as the name of the interpreter ends within it. -/
def ofContent? (content : Bytes) : Option Interpreter :=
  match window content with
  | 0x23 :: 0x21 :: body =>
    let line := body.takeWhile (fun b => b ≠ 0x0A ∧ b ≠ 0)
    if body[line.length]? = some 0x0A then ofLine? line
    else if (body.dropWhile isSpace).any isEnd then ofLine? body.dropLast
    else none
  | _ => none

/-- The path of the interpreter.  Without a name it is the place where the script is started, a
directory. -/
def path (i : Interpreter) : Bytes :=
  if i.name = [] then [0x2E] else i.name

end Interpreter

end LineShell
