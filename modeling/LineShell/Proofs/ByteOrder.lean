import LineShell.Scope
import LineShell.Text.Bytes
import Mathlib.Algebra.Group.Nat.Defs
import Mathlib.Data.List.Basic
import Mathlib.Tactic.SplitIfs

/-!
# The order of names

Names are kept in the order of their characters.  Seen as bytes they stand in the same order: UTF-8
gives the greater character the greater first byte, or the same first byte and greater digits behind
it.

* `continuationBytes`, `leadByte`, `followerCount` — the bytes of a character, told by arithmetic.
* `utf8EncodeChar_append_lt` — the first character in which two texts differ decides.
* **`Bytes.ofString_lt_iff`** — the order of names is the order of their bytes.
-/

namespace LineShell

/-! ## The bytes of a character -/

/-- The last digits of a number to base 64, as they follow the first byte of a character. -/
def continuationBytes : Nat → Nat → List UInt8
  | 0, _ => []
  | k + 1, v => continuationBytes k (v / 64) ++ [UInt8.ofNat (v % 64 + 128)]

/-- How many bytes follow the first byte of a character. -/
def followerCount (v : Nat) : Nat :=
  if v ≤ 127 then 0 else if v ≤ 2047 then 1 else if v ≤ 65535 then 2 else 3

/-- The first byte of a character: its leading digit, with a mark for how many bytes follow. -/
def leadByte (v : Nat) : Nat :=
  if v ≤ 127 then v
  else if v ≤ 2047 then v / 64 + 192
  else if v ≤ 65535 then v / 4096 + 224
  else v / 262144 + 240

lemma toNat_val_lt (c : Char) : c.val.toNat < 1114112 := by
  have h := c.valid
  simp only [UInt32.isValidChar, Nat.isValidChar] at h
  omega

lemma utf8EncodeChar_eq (c : Char) :
    String.utf8EncodeChar c
      = UInt8.ofNat (leadByte c.val.toNat)
        :: continuationBytes (followerCount c.val.toNat) c.val.toNat := by
  have hc := toNat_val_lt c
  unfold String.utf8EncodeChar
  generalize c.val.toNat = v at hc ⊢
  simp only [leadByte, followerCount]
  split
  · rfl
  · split
    · have h : v / 64 % 32 = v / 64 := by omega
      simp [continuationBytes, h]
    · split
      · have h : v / 4096 % 16 = v / 4096 := by omega
        simp [continuationBytes, h]
      · have h : v / 262144 % 8 = v / 262144 := by omega
        simp [continuationBytes, h, Nat.div_div_eq_div_mul]

/-! ## Which of two characters is greater -/

lemma cons_lt_cons_of_lt {m n : Nat} (hn : n < 256) (h : m < n) (xs ys : List UInt8) :
    UInt8.ofNat m :: xs < UInt8.ofNat n :: ys := by
  refine List.cons_lt_cons_iff.2 (.inl ?_)
  rw [UInt8.lt_iff_toNat_lt, UInt8.toNat_ofNat_of_lt' hn,
    UInt8.toNat_ofNat_of_lt' (Nat.lt_trans h hn)]
  exact h

/-- Of two numbers, the leading digits tell the greater one, or else the last digits do. -/
lemma continuationBytes_lt (k : Nat) {v w : Nat} (h : v < w) (xs ys : List UInt8) :
    v / 64 ^ k < w / 64 ^ k ∨
      v / 64 ^ k = w / 64 ^ k ∧ continuationBytes k v ++ xs < continuationBytes k w ++ ys := by
  induction k generalizing v w xs ys with
  | zero => exact .inl (by simpa using h)
  | succ k ih =>
      have hpow : ∀ x, x / 64 ^ (k + 1) = x / 64 / 64 ^ k := by
        intro x
        rw [Nat.pow_succ', Nat.div_div_eq_div_mul]
      rw [hpow, hpow, continuationBytes, continuationBytes, List.append_assoc, List.append_assoc]
      by_cases hdiv : v / 64 < w / 64
      · exact ih hdiv _ _
      · have heq : v / 64 = w / 64 := by omega
        refine .inr ⟨by rw [heq], ?_⟩
        rw [heq]
        refine List.append_left_lt ?_
        exact cons_lt_cons_of_lt (by omega) (by omega) xs ys

/-- The first bytes of two characters are in order, and where they agree, as many bytes follow. -/
lemma leadByte_lt_or_eq {v w : Nat} (h : v < w) (hw : w < 1114112) :
    leadByte v < leadByte w ∨
      leadByte v = leadByte w ∧ followerCount v = followerCount w ∧
        v / 64 ^ followerCount w = w / 64 ^ followerCount w := by
  unfold leadByte followerCount
  split_ifs <;> omega

lemma leadByte_lt {v : Nat} (h : v < 1114112) : leadByte v < 256 := by
  unfold leadByte
  split_ifs <;> omega

lemma utf8EncodeChar_append_lt {c d : Char} (h : c < d) (xs ys : List UInt8) :
    String.utf8EncodeChar c ++ xs < String.utf8EncodeChar d ++ ys := by
  have hlt : c.val.toNat < d.val.toNat := h
  have hd := toNat_val_lt d
  rw [utf8EncodeChar_eq, utf8EncodeChar_eq, List.cons_append, List.cons_append]
  rcases leadByte_lt_or_eq hlt hd with hlead | ⟨hlead, hcount, hdiv⟩
  · exact cons_lt_cons_of_lt (leadByte_lt hd) hlead _ _
  · rw [hlead, hcount]
    refine List.cons_lt_cons_iff.2 (.inr ⟨rfl, ?_⟩)
    rcases continuationBytes_lt (followerCount d.val.toNat) hlt xs ys with hk | ⟨-, hk⟩
    · omega
    · exact hk

/-! ## Texts -/

lemma flatMap_utf8EncodeChar_lt {a b : List Char} (h : a < b) :
    a.flatMap String.utf8EncodeChar < b.flatMap String.utf8EncodeChar := by
  induction a generalizing b with
  | nil =>
      cases b with
      | nil => exact absurd h (List.not_lt_nil [])
      | cons d b =>
          rw [List.flatMap_nil, List.flatMap_cons, utf8EncodeChar_eq]
          exact List.nil_lt_cons _ _
  | cons c a ih =>
      cases b with
      | nil => exact absurd h (List.not_lt_nil _)
      | cons d b =>
          rw [List.flatMap_cons, List.flatMap_cons]
          rcases List.cons_lt_cons_iff.1 h with hcd | ⟨rfl, hab⟩
          · exact utf8EncodeChar_append_lt hcd _ _
          · exact List.append_left_lt (ih hab)

lemma Bytes.ofString_eq (s : String) :
    Bytes.ofString s = s.toList.flatMap String.utf8EncodeChar := by
  rw [Bytes.ofString, ← String.utf8Encode_toList, List.utf8Encode, List.data_toByteArray]

/-- **The order of names is the order of their bytes.** -/
theorem Bytes.ofString_lt_iff {a b : String} : Bytes.ofString a < Bytes.ofString b ↔ a < b := by
  have hmono : ∀ {x y : String}, x < y → Bytes.ofString x < Bytes.ofString y := by
    intro x y h
    rw [Bytes.ofString_eq, Bytes.ofString_eq]
    exact flatMap_utf8EncodeChar_lt h
  refine ⟨fun h => ?_, hmono⟩
  by_contra hab
  rcases String.le_total a b with hle | hle
  · obtain rfl := String.le_antisymm hle (String.not_lt.1 hab)
    exact List.lt_irrefl _ h
  · have hne : a ≠ b := fun heq => List.lt_irrefl _ (heq ▸ h)
    have hba : b < a := String.not_le.1 fun hle' => hne (String.le_antisymm hle' hle)
    exact List.lt_asymm h (hmono hba)

end LineShell
