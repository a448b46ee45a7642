import LineShell.Evaluation.Command
import LineShell.Proofs.Unambiguous

/-!
# Words between quotes

Any word can be put on a line so that it comes back as it is.  The scanner and the resolution of
escapes read backslashes each on its own, the one to find the closing quote and the other to find
the text, but both take the next character with every backslash.  So they pair the characters of an
escaped word alike (`quotedBody_escape`, `unescape_escape`), however many backslashes stand in
a row, and what is between the quotes is never read as anything else.

* `Primary.escape` — a word as it stands between double quotes.
* `Writes` — the texts that stand for a word.
* `Writes.exists_segment` — such a text is one segment, and stands for the word.
* `parse_spaced` — the line of segments with a blank between each two of them.
* `primaries_eq_reference` — a word that is written like a reference is one.
* **`written_words_come_back`** — words that are written so come back as they are.
-/

namespace LineShell

/-! ## Escapes -/

namespace Primary

/-- A word as it stands between double quotes: a backslash before each backslash and each double
quote. -/
def escape (cs : List Char) : List Char :=
  cs.flatMap fun c => if c = '\\' ∨ c = '"' then ['\\', c] else [c]

lemma escape_cons (c : Char) (cs : List Char) :
    escape (c :: cs) = (if c = '\\' ∨ c = '"' then ['\\', c] else [c]) ++ escape cs :=
  List.flatMap_cons

/-- No quote of an escaped word closes the string. -/
lemma quotedBody_escape (cs : List Char) : QuotedBody '"' true (escape cs) := by
  induction cs with
  | nil => exact .nil
  | cons c cs ih =>
      rw [escape_cons]
      split
      · exact .pair rfl ih
      · next h =>
        rw [not_or] at h
        exact .plain h.2 (fun _ => h.1) ih

lemma unescape_escape (cs : List Char) : unescape (escape cs) = cs := by
  induction cs with
  | nil => rfl
  | cons c cs ih =>
      rw [escape_cons]
      split
      · next h => rcases h with rfl | rfl <;> simp [unescape, ih]
      · next h =>
        rw [not_or] at h
        simp [unescape, ih, h.1]

/-- Without escapes, a text without quotes is read as it stands. -/
lemma quotedBody_of_notMem {cs : List Char} (h : '\'' ∉ cs) : QuotedBody '\'' false cs := by
  induction cs with
  | nil => exact .nil
  | cons c cs ih =>
      rw [List.mem_cons, not_or] at h
      exact .plain (Ne.symm h.1) (by simp) (ih h.2)

end Primary

/-! ## Texts for words -/

/-- A text that stands for a word under a scope: the word between quotes, or a reference to a
variable that has it as value. -/
inductive Writes (scope : Scope) : String → String → Prop where
  | double (w : String) :
      Writes scope ("\"" ++ String.ofList (Primary.escape w.toList) ++ "\"") w
  /-- Between single quotes there are no escapes, so a single quote cannot be written there. -/
  | single (w : String) : '\'' ∉ w.toList → Writes scope ("'" ++ w ++ "'") w
  | reference (x v : String) : (∀ c ∈ x.toList, isVariableChar c = true) →
      scope.get? x = some v → Writes scope ("$" ++ x) v

/-- A segment that stands for a word, and ends where it does if no character of a name follows. -/
structure Primary.StandsFor (scope : Scope) (p : Primary) (w : String) : Prop where
  expand : p.expand scope = .ok w
  munched : ∀ rest, Stops isVariableChar rest → p.Munched rest

lemma Primary.expand_reference {scope : Scope} {x v : String} (h : scope.get? x = some v) :
    (Primary.reference x.toList).expand scope = .ok v := by
  simp [expand, kind, value, h]

/-- A text that stands for a word is one segment. -/
lemma Writes.exists_segment {scope : Scope} {t w : String} (h : Writes scope t w) :
    ∃ p : Primary, p.text = t.toList ∧ p.StandsFor scope w := by
  cases h with
  | double w =>
      refine ⟨.doubleQuoted (Primary.escape w.toList) true, ?_, ?_, ?_⟩
      · simp [Primary.text, Primary.quote, Primary.closing]
      · simp [Primary.expand, Primary.kind, Primary.value, Primary.unescape_escape]
      · intro rest _
        exact Primary.quotedBody_escape w.toList
  | single w hquote =>
      refine ⟨.singleQuoted w.toList true, ?_, ?_, ?_⟩
      · simp [Primary.text, Primary.quote, Primary.closing]
      · simp [Primary.expand, Primary.kind, Primary.value]
      · intro rest _
        exact Primary.quotedBody_of_notMem hquote
  | reference x v hx hv =>
      refine ⟨.reference x.toList, ?_, Primary.expand_reference hv, ?_⟩
      · simp [Primary.text]
      · intro rest hrest
        exact ⟨hx, hrest⟩

lemma exists_segments {scope : Scope} {texts words : List String}
    (h : List.Forall₂ (Writes scope) texts words) :
    ∃ ps : List Primary, ps.map Primary.text = texts.map String.toList ∧
      List.Forall₂ (Primary.StandsFor scope) ps words := by
  induction h with
  | nil => exact ⟨[], rfl, .nil⟩
  | cons hfirst _ ih =>
      obtain ⟨p, htext, hp⟩ := hfirst.exists_segment
      obtain ⟨ps, htexts, hps⟩ := ih
      exact ⟨p :: ps, by simp [htext, htexts], .cons hp hps⟩

/-! ## Segments with blanks between them -/

/-- The parts of a statement in which each segment is a word. -/
def spaced (ps : List Primary) : List FormPart :=
  (ps.map fun p => .word ⟨[p]⟩).intersperse (.space [' '])

lemma spaced_cons_cons (p q : Primary) (ps : List Primary) :
    spaced (p :: q :: ps) = .word ⟨[p]⟩ :: .space [' '] :: spaced (q :: ps) :=
  rfl

lemma flatMap_text_spaced (ps : List Primary) :
    (spaced ps).flatMap FormPart.text = [' '].intercalate (ps.map Primary.text) := by
  induction ps with
  | nil => rfl
  | cons p ps ih =>
      cases ps with
      | nil => simp [spaced, FormPart.text, Compound.text]
      | cons q qs =>
          rw [spaced_cons_cons, List.map_cons, List.map_cons, List.intercalate_cons_cons,
            ← List.map_cons, ← ih]
          simp [FormPart.text, Compound.text]

lemma words_spaced (ps : List Primary) : Form.words ⟨spaced ps⟩ = ps.map fun p => ⟨[p]⟩ := by
  induction ps with
  | nil => rfl
  | cons p ps ih =>
      cases ps with
      | nil => rfl
      | cons q qs =>
          rw [List.map_cons, ← ih]
          rfl

lemma wellFormed_spaced {ps : List Primary} (hne : ps ≠ []) : Form.WellFormed ⟨spaced ps⟩ where
  ne_nil := by
    match ps, hne with
    | [p], _ | p :: q :: ps, _ => simp [spaced]
  alternates := by
    induction ps with
    | nil => exact absurd rfl hne
    | cons p ps ih =>
        cases ps with
        | nil => exact ⟨rfl, trivial⟩
        | cons q qs => exact ⟨rfl, rfl, ih (by simp)⟩
  words := by
    intro w hw
    have hmem : w ∈ Form.words ⟨spaced ps⟩ := List.mem_filterMap.2 ⟨_, hw, rfl⟩
    rw [words_spaced] at hmem
    obtain ⟨p, -, rfl⟩ := List.mem_map.1 hmem
    simp

/-- Blanks end a segment, and the segment behind them ends the blanks. -/
lemma row_spaced {ps : List Primary}
    (h : ∀ p ∈ ps, ∀ rest, Stops isWordChar rest → p.Munched rest) :
    Lexeme.Row (Form.lexemes ⟨spaced ps⟩) [] := by
  induction ps with
  | nil => trivial
  | cons p ps ih =>
      have hp := h p List.mem_cons_self
      have ih := ih fun q hq => h q (List.mem_cons_of_mem _ hq)
      cases ps with
      | nil => exact ⟨hp [] (stops_nil _), trivial⟩
      | cons q qs =>
          obtain ⟨c, cs, hq, hspace, -⟩ :=
            (h q (by simp) [] (stops_nil _)).exists_text_eq_cons
          have hbehind : Stops isSpace
              ((Form.lexemes ⟨spaced (q :: qs)⟩).flatMap Lexeme.text ++ []) := by
            rw [Form.flatMap_text_lexemes, Form.text, flatMap_text_spaced]
            cases qs <;> simp [List.intercalate_cons_cons, hq, hspace]
          refine ⟨hp _ ?_, ⟨by simp, by simp [isSpace], hbehind⟩, ih⟩
          exact stops_cons_iff.2 (by decide)

/-- Segments with a blank between each two of them are the words of one statement, and nothing else
is on the line, if each of them ends where its word does. -/
lemma parse_spaced_of_munched {ps : List Primary} (hne : ps ≠ [])
    (h : ∀ p ∈ ps, ∀ rest, Stops isWordChar rest → p.Munched rest) :
    parse ([' '].intercalate (ps.map Primary.text)) = ⟨[.form ⟨spaced ps⟩]⟩ := by
  refine parse_eq_iff.2 ⟨?_, ?_, ?_, ?_⟩
  · simp [Chunk.text, ChunkPart.text, Form.text, flatMap_text_spaced]
  · intro f hf
    obtain rfl : f = ⟨spaced ps⟩ := by simpa using hf
    exact wellFormed_spaced hne
  · exact List.IsChain.singleton _
  · simpa [Chunk.lexemes, ChunkPart.lexemes] using row_spaced h

lemma parse_spaced {ps : List Primary} (hne : ps ≠ [])
    (h : ∀ p ∈ ps, ∀ rest, Stops isVariableChar rest → p.Munched rest) :
    parse ([' '].intercalate (ps.map Primary.text)) = ⟨[.form ⟨spaced ps⟩]⟩ :=
  parse_spaced_of_munched hne fun p hp rest hrest =>
    h p hp rest (hrest.of_isWordChar fun _ => isWordChar_of_isVariableChar)

/-! ## What the words stand for -/

/-- A word of one segment stands for what the segment stands for. -/
lemma Compound.expand_singleton {scope : Scope} {p : Primary} {w : String}
    (h : p.expand scope = .ok w) : Compound.expand scope ⟨[p]⟩ = .ok w := by
  simp [expand, h, Except.map, pure, Except.pure, bind, Except.bind]

lemma expand_spaced {scope : Scope} {ps : List Primary} {words : List String}
    (h : List.Forall₂ (Primary.StandsFor scope) ps words) :
    Form.expand scope ⟨spaced ps⟩ = .ok words := by
  rw [Form.expand, words_spaced]
  induction h with
  | nil => rfl
  | cons hp _ ih =>
      rw [List.map_cons, List.mapM_cons, Compound.expand_singleton hp.expand, ih]
      rfl

/-! ## References -/

/-- In a row of segments, a text that is a reference is one segment. -/
lemma primaries_eq_reference {ps : List Primary} {rest x : List Char}
    (hrow : Lexeme.Row (ps.map .primary) rest) (htext : ps.flatMap Primary.text = '$' :: x)
    (hx : ∀ c ∈ x, isVariableChar c = true) : ps = [.reference x] := by
  cases ps with
  | nil => simp at htext
  | cons p qs =>
      obtain ⟨hp, hqs⟩ := hrow
      have hp : p.Munched ((qs.map Lexeme.primary).flatMap Lexeme.text ++ rest) := hp
      cases p with
      | bareword t =>
          obtain ⟨hne, hall, -⟩ := hp
          obtain ⟨c, t, rfl⟩ := List.exists_cons_of_ne_nil hne
          obtain ⟨rfl, -⟩ : c = '$' ∧ t ++ qs.flatMap Primary.text = x := by
            simpa [Primary.text] using htext
          exact absurd (hall '$' List.mem_cons_self) (by decide)
      | singleQuoted body closed | doubleQuoted body closed =>
          simp [Primary.text, Primary.quote] at htext
      | reference name =>
          have hname : name ++ qs.flatMap Primary.text = x := by simpa [Primary.text] using htext
          cases qs with
          | nil => simpa using hname
          | cons q qs =>
              -- what follows the name would go on with it
              obtain ⟨c, cs, hq, -, -⟩ := Primary.Munched.exists_text_eq_cons hqs.1
              have hc : isVariableChar c = false := by
                simpa [Lexeme.text, hq] using hp.2
              have hmem : c ∈ x := by simp [← hname, hq]
              simp [hx c hmem] at hc

/-- What stands in a row of lexemes ends where it does. -/
lemma Lexeme.Row.exists_row_of_mem {α : Type} {g : α → List Lexeme} {as : List α}
    {rest : List Char} (h : Row (as.flatMap g) rest) {a : α} (ha : a ∈ as) :
    ∃ rest', Row (g a) rest' := by
  obtain ⟨before, after, rfl⟩ := List.append_of_mem ha
  rw [List.flatMap_append, List.flatMap_cons] at h
  exact ⟨_, (row_append_iff.1 (row_append_iff.1 h).2).1⟩

lemma primaries_of_text {line x : List Char} {f : Form} {w : Compound}
    (hf : .form f ∈ (parse line).parts) (hw : w ∈ f.words) (htext : w.text = '$' :: x)
    (hx : ∀ c ∈ x, isVariableChar c = true) : w.primaries = [.reference x] := by
  obtain ⟨rest, hform⟩ := Lexeme.Row.exists_row_of_mem (parse_canonical line).row hf
  have hmem : FormPart.word w ∈ f.parts := by
    obtain ⟨p, hp, hpw⟩ := List.mem_filterMap.1 hw
    cases p <;> simp_all
  obtain ⟨rest', hword⟩ := Lexeme.Row.exists_row_of_mem hform hmem
  exact primaries_eq_reference hword htext hx

/-- A word of a form that stands for a value gives one word, wherever it stands. -/
lemma Form.expand_of_words {scope : Scope} {f : Form} {before after : List Compound}
    {w : Compound} {v : String} (hwords : f.words = before ++ w :: after)
    (hw : w.expand scope = .ok v) :
    f.expand scope = (before.mapM (Compound.expand scope)).bind fun us =>
      (after.mapM (Compound.expand scope)).map fun vs => us ++ v :: vs := by
  rw [expand, hwords, List.mapM_append, List.mapM_cons, hw]
  cases before.mapM (Compound.expand scope) with
  | error e => rfl
  | ok us => cases after.mapM (Compound.expand scope) <;> rfl

/-! ## Round trip -/

/-- **Words that are written between quotes, or by reference, come back as they are**: the line is
one form, and the form has these words.  On any line, a reference by itself is one word of its form,
the value of the variable as it is. -/
theorem written_words_come_back (scope : Scope) :
    (∀ texts words, texts ≠ [] → List.Forall₂ (Writes scope) texts words →
      ∃ f, (parse (" ".intercalate texts).toList).parts = [.form f] ∧
        f.expand scope = .ok words) ∧
    ∀ line f, .form f ∈ (parse line).parts → ∀ before w after, f.words = before ++ w :: after →
      ∀ x v : String, w.text = '$' :: x.toList → (∀ c ∈ x.toList, isVariableChar c = true) →
        scope.get? x = some v → w.expand scope = .ok v ∧
          f.expand scope = (before.mapM (Compound.expand scope)).bind fun us =>
            (after.mapM (Compound.expand scope)).map fun vs => us ++ v :: vs := by
  refine ⟨?_, ?_⟩
  · intro texts words hne hwrites
    obtain ⟨ps, htexts, hps⟩ := exists_segments hwrites
    have hline : (" ".intercalate texts).toList = [' '].intercalate (ps.map Primary.text) := by
      rw [String.toList_intercalate, htexts]
      rfl
    have hne : ps ≠ [] := by
      rintro rfl
      exact hne (by simpa using htexts)
    have hmunched : ∀ p ∈ ps, ∀ rest, Stops isVariableChar rest → p.Munched rest := by
      intro p hp
      obtain ⟨w, -, hw⟩ := exists_of_forall₂ hps.flip hp
      exact hw.munched
    refine ⟨⟨spaced ps⟩, ?_, expand_spaced hps⟩
    rw [hline, parse_spaced hne hmunched]
  · intro line f hf before w after hwords x v htext hx hv
    have hprimaries := primaries_of_text hf (by simp [hwords]) htext hx
    have hw : w.expand scope = .ok v := by
      obtain ⟨primaries⟩ := w
      obtain rfl : primaries = [.reference x.toList] := hprimaries
      exact Compound.expand_singleton (Primary.expand_reference hv)
    exact ⟨hw, Form.expand_of_words hwords hw⟩

/-- An escaped quote behind an escaped backslash does not close the string, and what stands between
quotes neither ends the statement nor is replaced. -/
theorem written_words_come_back_escaped :
    ∃ f, (parse "\"\\\\\\\"\" 'a;\n$b'".toList).parts = [.form f] ∧
      f.expand .empty = .ok ["\\\"", "a;\n$b"] := by
  have hwrites : List.Forall₂ (Writes .empty)
      ["\"" ++ String.ofList (Primary.escape "\\\"".toList) ++ "\"", "'" ++ "a;\n$b" ++ "'"]
      ["\\\"", "a;\n$b"] :=
    .cons (.double _) (.cons (.single _ (by decide)) .nil)
  have h := (written_words_come_back .empty).1 _ _ (by simp) hwrites
  simpa [Primary.escape] using h

end LineShell
