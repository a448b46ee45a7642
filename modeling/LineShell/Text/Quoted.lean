import LineShell.Text.Bytes
import LineShell.Text.Hidden

/-!
# Texts in quotes

For a reader who has to see every character, a text is put between double quotes, and whatever
would not show is written as an escape.

* `escaped` — one character.
* `quoted` — a text.
* **`quotedBytes`** — a byte string, bytes that are no text being written as numbers.
-/

namespace LineShell.Text

/-- The digits of a number to base sixteen, at least so many. -/
def hexDigits (width n : Nat) : List Char :=
  let ds := Nat.toDigits 16 n
  List.replicate (width - ds.length) '0' ++ ds

/-- A character as it stands between quotes. -/
def escaped (c : Char) : List Char :=
  match c with
  | '\x00' => ['\\', '0']
  | '\t' => ['\\', 't']
  | '\n' => ['\\', 'n']
  | '\r' => ['\\', 'r']
  | '\\' => ['\\', '\\']
  | '"' => ['\\', '"']
  | c =>
    if isHidden c then ['\\', 'u', '\x7b'] ++ hexDigits 1 c.toNat ++ ['\x7d']
    else [c]

def quoted (s : String) : String :=
  String.ofList ('"' :: (s.toList.flatMap escaped ++ ['"']))

/-- A piece of a byte string as it stands between quotes. -/
def escapedPiece : Bytes.Piece → List Char
  | .char c => escaped c
  | .junk bytes => bytes.flatMap fun b =>
    ['\\', 'x'] ++ (hexDigits 2 b.toNat).map Char.toUpper

def quotedBytes (b : Bytes) : String :=
  String.ofList ('"' :: (b.pieces.flatMap escapedPiece ++ ['"']))

end LineShell.Text
