import LineShell.Text.Bytes
import Mathlib.Data.List.Basic

/-!
# Slices of a line

A node says in bytes where it stands on the line.  Such a position is of use only if it lies
between two characters: there is no text from the middle of a character on.

* `splitAtByte?` — a line cut in two at a byte; `none` inside a character and past the end.
* **`slice?`** — the text between two bytes.  `slice?_eq_some_iff` says that a slice exists exactly
  where the line has that text, so it is a statement about both ends at once.
* `append_inj_of_byteSize` — a line has one cut at each byte.
-/

namespace LineShell

/-! ## Sizes -/

lemma byteSize_pos {cs : List Char} (h : cs ≠ []) : 0 < byteSize cs := by
  cases cs with
  | nil => exact absurd rfl h
  | cons c cs =>
      have hc : 0 < c.utf8Size := Char.utf8Size_pos c
      rw [byteSize_cons]
      omega

@[simp] lemma byteSize_eq_zero_iff {cs : List Char} : byteSize cs = 0 ↔ cs = [] := by
  constructor
  · intro h
    by_contra hne
    have := byteSize_pos hne
    omega
  · rintro rfl
    rfl

/-! ## Cutting a line -/

/-- A line cut in two at a byte, if the byte is where a character begins or the line ends. -/
def splitAtByte? : List Char → Nat → Option (List Char × List Char)
  | cs, 0 => some ([], cs)
  | [], _ + 1 => none
  | c :: cs, n + 1 =>
    if c.utf8Size ≤ n + 1 then
      (splitAtByte? cs (n + 1 - c.utf8Size)).map fun s => (c :: s.1, s.2)
    else none

lemma splitAtByte?_append (a b : List Char) : splitAtByte? (a ++ b) (byteSize a) = some (a, b) := by
  induction a with
  | nil => cases b <;> rfl
  | cons c a ih =>
      obtain ⟨k, hk⟩ : ∃ k, c.utf8Size = k + 1 :=
        Nat.exists_eq_add_one_of_ne_zero (Nat.ne_of_gt (Char.utf8Size_pos c))
      have hn : byteSize (c :: a) = k + byteSize a + 1 := by
        rw [byteSize_cons, hk]
        omega
      have hle : c.utf8Size ≤ k + byteSize a + 1 := by omega
      have hsub : k + byteSize a + 1 - c.utf8Size = byteSize a := by omega
      rw [hn, List.cons_append, splitAtByte?, if_pos hle, hsub, ih]
      rfl

lemma splitAtByte?_eq_some_iff {cs a b : List Char} {n : Nat} :
    splitAtByte? cs n = some (a, b) ↔ cs = a ++ b ∧ byteSize a = n := by
  constructor
  · intro h
    fun_induction splitAtByte? cs n generalizing a b with
    | case1 cs =>
        obtain ⟨rfl, rfl⟩ : [] = a ∧ cs = b := by simpa using h
        exact ⟨rfl, rfl⟩
    | case2 n => exact absurd h (by simp)
    | case3 c cs n hle ih =>
        obtain ⟨⟨a', b'⟩, hs, he⟩ := Option.map_eq_some_iff.1 h
        obtain ⟨rfl, rfl⟩ : c :: a' = a ∧ b' = b := by simpa using he
        obtain ⟨rfl, hn⟩ := ih hs
        refine ⟨rfl, ?_⟩
        rw [byteSize_cons]
        omega
    | case4 c cs n hgt => exact absurd h (by simp)
  · rintro ⟨rfl, rfl⟩
    exact splitAtByte?_append a b

/-- A line has one cut at each byte. -/
lemma append_inj_of_byteSize {a b a' b' : List Char} (h : a ++ b = a' ++ b')
    (hs : byteSize a = byteSize a') : a = a' ∧ b = b' := by
  have ha := splitAtByte?_append a b
  rw [h, hs, splitAtByte?_append] at ha
  obtain ⟨rfl, rfl⟩ : a' = a ∧ b' = b := by simpa using ha
  exact ⟨rfl, rfl⟩

/-! ## Slices -/

/-- The text of a line between two bytes, if they are in order and both are where a character
begins or the line ends. -/
def slice? (line : List Char) (start stop : Nat) : Option (List Char) :=
  if start ≤ stop then do
    let (_, rest) ← splitAtByte? line start
    let (text, _) ← splitAtByte? rest (stop - start)
    return text
  else none

/-- A slice exists exactly where the line has its text. -/
theorem slice?_eq_some_iff {line text : List Char} {start stop : Nat} :
    slice? line start stop = some text ↔
      ∃ before after, line = before ++ text ++ after ∧ byteSize before = start ∧
        stop = start + byteSize text := by
  constructor
  · intro h
    rw [slice?] at h
    split at h
    · next hle =>
      obtain ⟨⟨before, rest⟩, hb, h⟩ := Option.bind_eq_some_iff.1 h
      obtain ⟨⟨t, after⟩, ht, h⟩ := Option.bind_eq_some_iff.1 h
      obtain rfl : t = text := by simpa using h
      obtain ⟨rfl, hstart⟩ := splitAtByte?_eq_some_iff.1 hb
      obtain ⟨rfl, hsize⟩ := splitAtByte?_eq_some_iff.1 ht
      exact ⟨before, after, by rw [List.append_assoc], hstart, by omega⟩
    · exact absurd h (by simp)
  · rintro ⟨before, after, rfl, rfl, rfl⟩
    have hsub : byteSize before + byteSize text - byteSize before = byteSize text := by omega
    rw [slice?, if_pos (by omega), List.append_assoc, splitAtByte?_append, hsub]
    simp [splitAtByte?_append]

example : slice? ['h', 'é', 'o'] 1 3 = some ['é'] ∧ slice? ['h', 'é', 'o'] 1 2 = none := by decide

end LineShell
