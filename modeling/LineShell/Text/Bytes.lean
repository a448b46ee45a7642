/-!
# Text as bytes

Positions on a line are counted in bytes of its UTF-8 form, and file names, paths and environment
variables are bytes that need not be UTF-8 at all.

* `byteSize` — how many bytes a run of characters takes.
* `Bytes` — a byte string; `Bytes.ofString` and `Bytes.text?` go between it and text, and
  `Bytes.text?_eq_some_iff` says that they undo each other.
* **`Bytes.lossy`** — the text shown for a byte string: itself where it is UTF-8, and U+FFFD for
  every maximal piece that is not.
-/

namespace LineShell

/-- The number of bytes that a run of characters takes in UTF-8. -/
def byteSize (cs : List Char) : Nat :=
  cs.foldr (fun c n => c.utf8Size + n) 0

@[simp] theorem byteSize_nil : byteSize [] = 0 := rfl

@[simp] theorem byteSize_cons (c : Char) (cs : List Char) :
    byteSize (c :: cs) = c.utf8Size + byteSize cs := rfl

@[simp] theorem byteSize_append (a b : List Char) :
    byteSize (a ++ b) = byteSize a + byteSize b := by
  induction a with
  | nil => simp
  | cons c a ih => simp [ih, Nat.add_assoc]

/-- A string of bytes, as the operating system keeps names, paths and variables. -/
abbrev Bytes := List UInt8

namespace Bytes

def ofString (s : String) : Bytes :=
  s.toByteArray.data.toList

/-- Whether a byte is a digit of a base, which is at most ten. -/
def isDigit (base : Nat) (b : UInt8) : Bool :=
  0x30 ≤ b.toNat && b.toNat < 0x30 + base

/-- The text that a byte string is the UTF-8 form of, if there is one. -/
def text? (b : Bytes) : Option String :=
  String.fromUTF8? ⟨b.toArray⟩

/-- A text has one UTF-8 form, and is read from it alone. -/
theorem text?_eq_some_iff {b : Bytes} {s : String} : b.text? = some s ↔ b = ofString s := by
  unfold text? String.fromUTF8?
  constructor
  · intro h
    split at h
    · next hvalid =>
      obtain rfl := Option.some.inj h
      rfl
    · exact absurd h (by simp)
  · rintro rfl
    have hbytes : (⟨(ofString s).toArray⟩ : ByteArray) = s.toByteArray := by
      rw [ofString, Array.toArray_toList]
    rw [dif_pos (hbytes ▸ s.isValidUTF8)]
    exact congrArg some (String.toByteArray_inj.1 hbytes)

@[simp] theorem text?_ofString (s : String) : (ofString s).text? = some s :=
  text?_eq_some_iff.2 rfl

theorem ofString_injective : Function.Injective ofString := by
  intro a b h
  have htext := congrArg text? h
  rw [text?_ofString, text?_ofString] at htext
  exact Option.some.inj htext

/-- What one look at the front of a byte string finds: a character with the bytes it takes, or
bytes that begin no character. -/
inductive Piece where
  | char (c : Char)
  | junk (bytes : Bytes)
  deriving DecidableEq, Repr

/-- The least and the greatest byte that may follow a first byte, and how many bytes follow it in
all; `none` where the byte begins no character of more than one byte. -/
def followers (b : UInt8) : Option (UInt8 × UInt8 × Nat) :=
  if 0xC2 ≤ b ∧ b ≤ 0xDF then some (0x80, 0xBF, 1)
  else if b = 0xE0 then some (0xA0, 0xBF, 2)
  else if b = 0xED then some (0x80, 0x9F, 2)
  else if 0xE1 ≤ b ∧ b ≤ 0xEF then some (0x80, 0xBF, 2)
  else if b = 0xF0 then some (0x90, 0xBF, 3)
  else if 0xF1 ≤ b ∧ b ≤ 0xF3 then some (0x80, 0xBF, 3)
  else if b = 0xF4 then some (0x80, 0x8F, 3)
  else none

/-- The continuation bytes at the front, at most `n` of them, the first between `low` and
`high`. -/
def continuation (low high : UInt8) : Nat → Bytes → Bytes
  | 0, _ => []
  | _, [] => []
  | n + 1, b :: bs => if low ≤ b ∧ b ≤ high then b :: continuation 0x80 0xBF n bs else []

/-- The code point that the bytes of one character spell. -/
def codePoint (first : UInt8) (rest : Bytes) : Nat :=
  let lead := match rest.length with
    | 0 => first.toNat
    | 1 => first.toNat % 0x20
    | 2 => first.toNat % 0x10
    | _ => first.toNat % 0x08
  rest.foldl (fun n b => n * 0x40 + b.toNat % 0x40) lead

/-- The first piece of a byte string that begins with `b`, and how many bytes after `b` it
takes. -/
def firstPiece (b : UInt8) (bs : Bytes) : Piece × Nat :=
  if b < 0x80 then (.char (Char.ofNat b.toNat), 0)
  else match followers b with
    | none => (.junk [b], 0)
    | some (low, high, n) =>
      let more := continuation low high n bs
      if more.length = n then (.char (Char.ofNat (codePoint b more)), n)
      else (.junk (b :: more), more.length)

/-- A byte string cut into characters and junk.  Junk is cut where the next byte can no longer
belong to the character that was begun. -/
def pieces : Bytes → List Piece
  | [] => []
  | b :: bs => (firstPiece b bs).1 :: pieces (bs.drop (firstPiece b bs).2)
termination_by b => b.length

/-- A byte string shown as text: one U+FFFD stands for each piece of junk. -/
def lossy (b : Bytes) : String :=
  match b.text? with
  | some s => s
  | none => String.ofList <| b.pieces.map fun
    | .char c => c
    | .junk _ => '\uFFFD'

/-- A byte string that is UTF-8 is shown as the text it is. -/
theorem lossy_of_text? {b : Bytes} {s : String} (h : b.text? = some s) : b.lossy = s := by
  simp [lossy, h]

end Bytes

end LineShell
