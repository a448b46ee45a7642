import LineShell.Proofs.MaximalMunch
import LineShell.Proofs.WrittenStrings
import LineShell.Toml.Reader

/-!
# The tokens of what is written

A document that is written has nothing in it that a document may not hold, and it falls into tokens
line by line: a header is its name between brackets, and an assignment is a name, an equals sign and
a value, with a blank on either side of the sign.

* `IsBare` — words that can be keys without quotes, which values without quotes are as well.
* `WellNamed` — sections with such names, each given once.
* `Plain.token`, `assignmentTokens`, `sectionTokens`, `documentTokens` — the tokens that are meant.
* `documentText_writeSections` — every character may stand in a document.
* **`lex_writeSections`** — what is written is cut into these tokens.
-/

namespace LineShell.Toml

/-! ## Bare words -/

/-- A word that needs no quotes where it is a key. -/
structure IsBare (word : List Char) : Prop where
  ne_nil : word ≠ []
  keyChars : ∀ c ∈ word, isKeyChar c = true

instance (word : List Char) : Decidable (IsBare word) :=
  decidable_of_iff (word ≠ [] ∧ word.all isKeyChar = true)
    ⟨fun h => ⟨h.1, List.all_eq_true.1 h.2⟩, fun h => ⟨h.ne_nil, List.all_eq_true.2 h.keyChars⟩⟩

lemma isWordChar_of_isKeyChar {c : Char} (h : isKeyChar c = true) : isWordChar c = true := by
  by_contra hword
  simp only [isWordChar, isBlank, Bool.not_eq_true', Bool.or_eq_true, beq_iff_eq,
    Bool.not_eq_false] at hword
  obtain ((((((((((((rfl | rfl) | rfl) | rfl) | rfl) | rfl) | rfl) | rfl) | rfl) | rfl) | rfl)
    | rfl) | rfl) := hword
  all_goals exact absurd h (by decide)

lemma isAllowed_of_isKeyChar {c : Char} (h : isKeyChar c = true) : isAllowed c = true := by
  have hrange : 0x20 ≤ c.toNat ∧ c.toNat < 0x7f := by
    change (((decide (c.val ≥ 65 ∧ c.val ≤ 90) || (decide (c.val ≥ 97) && decide (c.val ≤ 122)))
      || c.isDigit) || c == '_' || c == '-') = true at h
    simp only [Bool.or_eq_true, Bool.and_eq_true, decide_eq_true_eq, beq_iff_eq,
      UInt32.le_iff_toNat_le, ge_iff_le, Char.isDigit_iff_toNat] at h
    rcases h with ((((⟨hlow, hhigh⟩ | ⟨hlow, hhigh⟩) | ⟨hlow, hhigh⟩) | rfl) | rfl)
    · exact ⟨Nat.le_trans (by decide) hlow, Nat.lt_of_le_of_lt hhigh (by decide)⟩
    · exact ⟨Nat.le_trans (by decide) hlow, Nat.lt_of_le_of_lt hhigh (by decide)⟩
    · exact ⟨Nat.le_trans (by decide) hlow, Nat.lt_of_le_of_lt hhigh (by decide)⟩
    · decide
    · decide
  have hdelete : c ≠ '\x7f' := by
    rintro rfl
    exact absurd hrange.2 (by decide)
  simp [isAllowed, hrange.1, hdelete]

/-- A word is not taken for anything else. -/
lemma ofChar?_of_isWordChar {c : Char} (h : isWordChar c = true) :
    Token.ofChar? c = none ∧ c ≠ '#' ∧ c ≠ '"' ∧ c ≠ '\'' := by
  simp only [isWordChar, isBlank, Bool.not_eq_true', Bool.or_eq_false_iff, beq_eq_false_iff_ne]
    at h
  refine ⟨?_, by simp [h]⟩
  unfold Token.ofChar?
  split <;> simp_all

lemma IsBare.lex_append {word rest : List Char} (h : IsBare word) (hrest : Stops isWordChar rest) :
    lex (word ++ rest) = (lex rest).map (.word word :: ·) := by
  obtain ⟨c, cs, rfl⟩ := List.exists_cons_of_ne_nil h.ne_nil
  have hword : ∀ d ∈ c :: cs, isWordChar d = true := fun d hd =>
    isWordChar_of_isKeyChar (h.keyChars d hd)
  rw [List.forall_mem_cons] at hword
  obtain ⟨hnone, hhash, hdouble, hsingle⟩ := ofChar?_of_isWordChar hword.1
  have hscan : Token.scan c (cs ++ rest) = some (.word (c :: cs), rest) := by
    simp [Token.scan, hnone, hhash, hdouble, hsingle, takeWhile_append_of_stops hword.2 hrest,
      dropWhile_append_of_stops hword.2 hrest]
  exact lex_cons hscan

lemma isBare_toDigits (n : Nat) : IsBare (Nat.toDigits 10 n) := by
  refine ⟨Nat.toDigits_ne_nil, fun c hc => ?_⟩
  have hdigit := Nat.isDigit_of_mem_toDigits (by decide) (by decide) hc
  simp [isKeyChar, Char.isAlphanum, hdigit]

/-! ## The tokens that are meant -/

namespace Plain

def token : Plain → Token
  | string s => .string s.toList (Quoting.choose s.toList).multiline
  | size n => .word (Nat.toDigits 10 n)
  | flag true => .word "true".toList
  | flag false => .word "false".toList

/-- A value without quotes is a bare word. -/
lemma write_cases (v : Plain) :
    (∃ s, v = string s) ∨ IsBare v.write ∧ v.token = .word v.write := by
  cases v with
  | string s => exact .inl ⟨s, rfl⟩
  | size n => exact .inr ⟨isBare_toDigits n, rfl⟩
  | flag b => cases b <;> exact .inr ⟨by decide, rfl⟩

lemma lex_write (v : Plain) (rest : List Char) :
    lex (v.write ++ '\n' :: rest) = (lex ('\n' :: rest)).map (v.token :: ·) := by
  rcases v.write_cases with ⟨s, rfl⟩ | ⟨hbare, htoken⟩
  · exact lex_writeString (by simp)
  · rw [htoken]
    exact hbare.lex_append (stops_cons_iff.2 rfl)

lemma allowed_write (v : Plain) : ∀ c ∈ v.write, isAllowed c = true := by
  rcases v.write_cases with ⟨s, rfl⟩ | ⟨hbare, -⟩
  · exact allowed_writeString s.toList
  · exact fun c hc => isAllowed_of_isKeyChar (hbare.keyChars c hc)

end Plain

def assignmentTokens (a : String × Plain) : List Token :=
  [.word a.1.toList, .blank ' ', .equals, .blank ' ', a.2.token, .newline]

def sectionTokens (s : String × List (String × Plain)) : List Token :=
  [.openBracket, .word s.1.toList, .closeBracket, .newline] ++ s.2.flatMap assignmentTokens

/-- The sections have an empty line between them. -/
def documentTokens : List (String × List (String × Plain)) → List Token
  | [] => []
  | [s] => sectionTokens s
  | s :: ss => sectionTokens s ++ .newline :: documentTokens ss

/-- Sections with bare names, each of them given once, as are the names in each. -/
structure WellNamed (ss : List (String × List (String × Plain))) : Prop where
  sections : ∀ s ∈ ss, IsBare s.1.toList
  nodup : (ss.map Prod.fst).Nodup
  keys : ∀ s ∈ ss, ∀ a ∈ s.2, IsBare a.1.toList
  nodup_keys : ∀ s ∈ ss, (s.2.map Prod.fst).Nodup

/-! ## Cutting -/

section cut

variable {rest : List Char}

/-- A character that is a token by itself. -/
lemma lex_ofChar {c : Char} {t : Token} (h : Token.ofChar? c = some t) :
    lex (c :: rest) = (lex rest).map (t :: ·) := by
  refine lex_cons ?_
  simp [Token.scan, h]

lemma lex_writeAssignment {a : String × Plain} (h : IsBare a.1.toList) :
    lex (writeAssignment a ++ rest) = (lex rest).map (assignmentTokens a ++ ·) := by
  have hline : writeAssignment a ++ rest
      = a.1.toList ++ ' ' :: '=' :: ' ' :: (a.2.write ++ '\n' :: rest) := by
    simp [writeAssignment]
  rw [hline, h.lex_append (stops_cons_iff.2 rfl), lex_ofChar (t := .blank ' ') rfl,
    lex_ofChar (t := .equals) rfl, lex_ofChar (t := .blank ' ') rfl, Plain.lex_write,
    lex_ofChar (t := .newline) rfl]
  simp [assignmentTokens, Function.comp_def]

lemma lex_writeAssignments {as : List (String × Plain)} (h : ∀ a ∈ as, IsBare a.1.toList) :
    lex (as.flatMap writeAssignment ++ rest)
      = (lex rest).map (as.flatMap assignmentTokens ++ ·) := by
  induction as with
  | nil => simp
  | cons a as ih =>
      rw [List.forall_mem_cons] at h
      rw [List.flatMap_cons, List.append_assoc, lex_writeAssignment h.1, ih h.2]
      simp [Function.comp_def]

lemma lex_writeSection {s : String × List (String × Plain)} (hname : IsBare s.1.toList)
    (hkeys : ∀ a ∈ s.2, IsBare a.1.toList) :
    lex (writeSection s ++ rest) = (lex rest).map (sectionTokens s ++ ·) := by
  have htext : writeSection s ++ rest
      = '[' :: (s.1.toList ++ ']' :: '\n' :: (s.2.flatMap writeAssignment ++ rest)) := by
    simp [writeSection]
  rw [htext, lex_ofChar (t := .openBracket) rfl, hname.lex_append (stops_cons_iff.2 rfl),
    lex_ofChar (t := .closeBracket) rfl, lex_ofChar (t := .newline) rfl, lex_writeAssignments hkeys]
  simp [sectionTokens, Function.comp_def]

end cut

/-- **What is written is cut into the tokens that are meant.** -/
theorem lex_writeSections {ss : List (String × List (String × Plain))} (h : WellNamed ss) :
    lex (writeSections ss) = some (documentTokens ss) := by
  obtain ⟨hnames, -, hkeys, -⟩ := h
  fun_induction writeSections ss with
  | case1 => exact lex_nil
  | case2 s =>
      have hlex := @lex_writeSection [] s (hnames s (by simp)) (hkeys s (by simp))
      simpa [lex_nil, documentTokens] using hlex
  | case3 s ss hne ih =>
      rw [List.forall_mem_cons] at hnames hkeys
      rw [lex_writeSection hnames.1 hkeys.1, lex_ofChar (t := .newline) rfl, ih hnames.2 hkeys.2]
      simp [documentTokens]

/-! ## Characters -/

lemma allowed_writeAssignment {a : String × Plain} (h : IsBare a.1.toList) :
    ∀ c ∈ writeAssignment a, isAllowed c = true := by
  simp only [writeAssignment, List.forall_mem_append]
  exact ⟨⟨⟨fun c hc => isAllowed_of_isKeyChar (h.keyChars c hc), List.all_eq_true.1 rfl⟩,
    a.2.allowed_write⟩, List.all_eq_true.1 rfl⟩

lemma allowed_writeSection {s : String × List (String × Plain)} (hname : IsBare s.1.toList)
    (hkeys : ∀ a ∈ s.2, IsBare a.1.toList) : ∀ c ∈ writeSection s, isAllowed c = true := by
  simp only [writeSection, List.forall_mem_cons, List.forall_mem_append]
  refine ⟨rfl, ⟨fun c hc => isAllowed_of_isKeyChar (hname.keyChars c hc), rfl, rfl, by simp⟩, ?_⟩
  intro c hc
  obtain ⟨a, ha, hc⟩ := List.mem_flatMap.1 hc
  exact allowed_writeAssignment (hkeys a ha) c hc

lemma allowed_writeSections {ss : List (String × List (String × Plain))} (h : WellNamed ss) :
    ∀ c ∈ writeSections ss, isAllowed c = true := by
  obtain ⟨hnames, -, hkeys, -⟩ := h
  fun_induction writeSections ss with
  | case1 => simp
  | case2 s => exact allowed_writeSection (hnames s (by simp)) (hkeys s (by simp))
  | case3 s ss _ ih =>
      rw [List.forall_mem_cons] at hnames hkeys
      rw [List.forall_mem_append, List.forall_mem_cons]
      exact ⟨allowed_writeSection hnames.1 hkeys.1, rfl, ih hnames.2 hkeys.2⟩

lemma allAllowed_of_forall {cs : List Char} (h : ∀ c ∈ cs, isAllowed c = true) :
    allAllowed cs = true := by
  fun_induction allAllowed cs with
  | case1 => rfl
  | case2 cs ih => exact ih fun c hc => h c (by simp [hc])
  | case3 c cs _ ih =>
      rw [List.forall_mem_cons] at h
      rw [h.1, ih h.2]
      rfl

/-- **What is written may stand in a document**, and does not look as if it had a mark in front. -/
theorem documentText_writeSections {ss : List (String × List (String × Plain))}
    (h : WellNamed ss) : documentText (writeSections ss) = some (writeSections ss) := by
  have hmark : (writeSections ss).head? ≠ some '\uFEFF' := by
    fun_cases writeSections ss <;> simp [writeSection]
  rw [documentText]
  simp [hmark, allAllowed_of_forall (allowed_writeSections h)]

end LineShell.Toml
