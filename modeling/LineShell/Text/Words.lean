/-!
# Words of a text

Settings that hold several words are split at the blanks of Unicode and read without regard to
case.

* `isBlank` — the characters with the `White_Space` property of Unicode.
* **`words`** — the non-empty runs between blanks.
* `lowerToAscii` — lower case, as far as its result is ASCII.
* `parseByte` — a decimal number of eight bits.
-/

namespace LineShell.Text

/-- The blank characters, as closed ranges of code points. -/
def blankRanges : List (Nat × Nat) :=
  [(0x09, 0x0D), (0x20, 0x20), (0x85, 0x85), (0xA0, 0xA0), (0x1680, 0x1680), (0x2000, 0x200A),
    (0x2028, 0x2029), (0x202F, 0x202F), (0x205F, 0x205F), (0x3000, 0x3000)]

/-- Whether Unicode counts a character as white space. -/
def isBlank (c : Char) : Bool :=
  blankRanges.any fun r => r.1 ≤ c.toNat && c.toNat ≤ r.2

/-- The words of a text: what stands between blanks, where anything does. -/
def words (cs : List Char) : List (List Char) :=
  (cs.splitOnP isBlank).filter (· ≠ [])

/-- No piece of a list that is cut at some elements has such an element. -/
theorem of_mem_splitOnP {α : Type} {p : α → Bool} {xs s : List α} (h : s ∈ xs.splitOnP p) :
    ∀ x ∈ s, p x = false := by
  induction xs generalizing s with
  | nil =>
    obtain rfl : s = [] := by simpa using h
    simp
  | cons y xs ih =>
    rw [List.splitOnP_cons_eq_if_modifyHead] at h
    split at h
    · rcases List.mem_cons.1 h with rfl | h
      · simp
      · exact ih h
    · next hy =>
      obtain ⟨t, ts, ht⟩ := List.exists_cons_of_ne_nil (List.splitOnP_ne_nil p xs)
      rw [ht, List.modifyHead_cons] at h
      rcases List.mem_cons.1 h with rfl | h
      · exact List.forall_mem_cons.2 ⟨by simpa using hy, ih (by simp [ht])⟩
      · exact ih (by simp [ht, h])

/-- Lower case for every character whose lower case is an ASCII character: the capital letters of
ASCII and the Kelvin sign.  Any other character stays outside ASCII in lower case and is kept. -/
def lowerToAscii (c : Char) : Char :=
  if c = '\u212A' then 'k' else c.toLower

/-- The value of decimal digits, or nothing where a character is none. -/
def digits? : List Char → Nat → Option Nat
  | [], n => some n
  | c :: cs, n => if c.isDigit then digits? cs (10 * n + (c.toNat - '0'.toNat)) else none

/-- An unsigned number in decimal, with a plus sign or none. -/
def parseNat : List Char → Option Nat
  | [] => none
  | ['+'] => none
  | '+' :: c :: cs => digits? (c :: cs) 0
  | c :: cs => digits? (c :: cs) 0

/-- An unsigned number of eight bits in decimal. -/
def parseByte (cs : List Char) : Option UInt8 :=
  (parseNat cs).bind fun n => if n < 256 then some n.toUInt8 else none

end LineShell.Text
