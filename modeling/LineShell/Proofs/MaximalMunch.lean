import LineShell.Syntax.Lexeme
import Mathlib.Data.List.TakeWhile

/-!
# Where a lexeme ends

The scanners take as much as they can.  This file says what that means without them: a lexeme is
*munched* before a text if the grammar ends it there and nowhere later.  Both directions are
needed.  That the scanners give munched lexemes is the grammar of a line; that a line falls into
munched lexemes in one way only makes the grammar unambiguous.

* `Stops` — a text that does not begin with a character of a class.
* `QuotedBody`, `OpenBody` — what may stand between quotes, and after a quote that is never closed.
* `Primary.Munched`, `Lexeme.Munched` — the end of a lexeme, for each kind.
* **`lex_eq_iff`** — the lexemes of a line are its only row of munched lexemes.
-/

namespace LineShell

/-! ## Character classes -/

lemma isTerminator_iff {c : Char} : isTerminator c = true ↔ c = ';' ∨ c = '\n' := by
  simp [isTerminator]

lemma isSpace_iff {c : Char} : isSpace c = true ↔ c = ' ' ∨ c = '\t' ∨ c = '\r' := by
  simp [isSpace, or_assoc]

lemma isBareChar_iff {c : Char} :
    isBareChar c = true ↔
      isSpace c = false ∧ isTerminator c = false ∧ c ≠ '\'' ∧ c ≠ '"' ∧ c ≠ '$' := by
  simp [isBareChar, and_assoc]

lemma isTerminator_of_isSpace {c : Char} (h : isSpace c = true) : isTerminator c = false := by
  rcases isSpace_iff.1 h with rfl | rfl | rfl <;> decide

/-- A text that does not begin with a character of a class. -/
def Stops (p : Char → Bool) (rest : List Char) : Prop :=
  ∀ c ∈ rest.head?, p c = false

instance (p : Char → Bool) (rest : List Char) : Decidable (Stops p rest) :=
  inferInstanceAs (Decidable (∀ c ∈ rest.head?, p c = false))

@[simp] lemma stops_nil (p : Char → Bool) : Stops p [] := by
  intro c hc
  exact absurd hc (by simp)

@[simp] lemma stops_cons_iff {p : Char → Bool} {c : Char} {cs : List Char} :
    Stops p (c :: cs) ↔ p c = false := by
  simp [Stops]

lemma stops_dropWhile (p : Char → Bool) (cs : List Char) : Stops p (cs.dropWhile p) := by
  induction cs with
  | nil => exact stops_nil p
  | cons c cs ih =>
      rw [List.dropWhile_cons]
      split
      · exact ih
      · next h => simpa using h

/-- A run of a class that stops is what `takeWhile` takes. -/
lemma takeWhile_append_of_stops {p : Char → Bool} {t rest : List Char} (h : ∀ c ∈ t, p c = true)
    (hr : Stops p rest) : (t ++ rest).takeWhile p = t := by
  rw [List.takeWhile_append_of_pos h]
  cases rest with
  | nil => simp
  | cons c cs =>
      have hc : p c = false := stops_cons_iff.1 hr
      simp [hc]

lemma dropWhile_append_of_stops {p : Char → Bool} {t rest : List Char} (h : ∀ c ∈ t, p c = true)
    (hr : Stops p rest) : (t ++ rest).dropWhile p = rest := by
  rw [List.dropWhile_append_of_pos h]
  cases rest with
  | nil => rfl
  | cons c cs =>
      have hc : p c = false := stops_cons_iff.1 hr
      simp [hc]

/-! ## Between quotes -/

/-- A text in which no quote `q` closes the string: with `escapes`, a backslash takes the next
character with it, whatever it is. -/
inductive QuotedBody (q : Char) (escapes : Bool) : List Char → Prop
  | nil : QuotedBody q escapes []
  | plain {c : Char} {cs : List Char} : c ≠ q → (escapes = true → c ≠ '\\') →
      QuotedBody q escapes cs → QuotedBody q escapes (c :: cs)
  | pair {c : Char} {cs : List Char} : escapes = true →
      QuotedBody q escapes cs → QuotedBody q escapes ('\\' :: c :: cs)

/-- What may follow a quote that is never closed: at its very end a backslash may stand alone. -/
def OpenBody (q : Char) (escapes : Bool) (body : List Char) : Prop :=
  QuotedBody q escapes body ∨
    escapes = true ∧ ∃ init, QuotedBody q escapes init ∧ body = init ++ ['\\']

/-- A quoted string ends where it does: at its first unescaped closing quote, or with the line. -/
def QuoteEnds (q : Char) (escapes : Bool) (body : List Char) (closed : Bool)
    (rest : List Char) : Prop :=
  match closed with
  | true => QuotedBody q escapes body
  | false => OpenBody q escapes body ∧ rest = []

namespace Primary

lemma scanQuoted_plain {q c : Char} {e : Bool} (hq : c ≠ q) (he : e = true → c ≠ '\\')
    (cs : List Char) : scanQuoted q e (c :: cs) = (scanQuoted q e cs).cons [c] := by
  cases cs with
  | nil => simp [scanQuoted, Quoted.cons, hq]
  | cons d cs =>
      have hc : (e && c == '\\') = false := by
        cases e with
        | false => rfl
        | true => simpa using he rfl
      simp [scanQuoted, hc, hq]

lemma scanQuoted_pair (q c : Char) (cs : List Char) :
    scanQuoted q true ('\\' :: c :: cs) = (scanQuoted q true cs).cons ['\\', c] := by
  simp [scanQuoted]

lemma scanQuoted_close {q : Char} {e : Bool} (he : e = true → q ≠ '\\') (cs : List Char) :
    scanQuoted q e (q :: cs) = ⟨[], true, cs⟩ := by
  cases cs with
  | nil => simp [scanQuoted]
  | cons d cs =>
      have hc : (e && q == '\\') = false := by
        cases e with
        | false => rfl
        | true => simpa using he rfl
      simp [scanQuoted, hc]

lemma scanQuoted_body_append {q : Char} {e : Bool} {body : List Char} (h : QuotedBody q e body)
    (cs : List Char) : scanQuoted q e (body ++ cs) = (scanQuoted q e cs).cons body := by
  induction h with
  | nil => rfl
  | plain hq he _ ih =>
      rw [List.cons_append, scanQuoted_plain hq he, ih]
      rfl
  | pair he _ ih =>
      subst he
      rw [List.cons_append, List.cons_append, scanQuoted_pair, ih]
      rfl

lemma quoteEnds_scanQuoted (q : Char) (e : Bool) (cs : List Char) :
    QuoteEnds q e (scanQuoted q e cs).body (scanQuoted q e cs).closed (scanQuoted q e cs).rest := by
  fun_induction scanQuoted q e cs with
  | case1 => exact ⟨.inl .nil, rfl⟩
  | case2 => exact .nil
  | case3 c hc =>
      refine ⟨?_, rfl⟩
      by_cases hb : e = true ∧ c = '\\'
      · obtain ⟨rfl, rfl⟩ := hb
        exact .inr ⟨rfl, [], .nil, rfl⟩
      · exact .inl (.plain hc (fun he hcb => hb ⟨he, hcb⟩) .nil)
  | case4 c d cs h ih =>
      obtain ⟨rfl, rfl⟩ : e = true ∧ c = '\\' := by simpa using h
      simp only [Quoted.body_cons, Quoted.closed_cons, Quoted.rest_cons]
      simp only [QuoteEnds] at ih ⊢
      split at ih
      · exact .pair rfl ih
      · obtain ⟨hb | ⟨-, init, hi, hb⟩, hr⟩ := ih
        · exact ⟨.inl (.pair rfl hb), hr⟩
        · refine ⟨.inr ⟨rfl, '\\' :: d :: init, .pair rfl hi, ?_⟩, hr⟩
          simp [hb]
  | case5 d cs => exact .nil
  | case6 c d cs hnot hq ih =>
      have he : e = true → c ≠ '\\' := by
        rintro rfl rfl
        exact hnot rfl
      simp only [Quoted.body_cons, Quoted.closed_cons, Quoted.rest_cons]
      simp only [QuoteEnds] at ih ⊢
      split at ih
      · exact .plain hq he ih
      · obtain ⟨hb | ⟨rfl, init, hi, hb⟩, hr⟩ := ih
        · exact ⟨.inl (.plain hq he hb), hr⟩
        · refine ⟨.inr ⟨rfl, c :: init, .plain hq he hi, ?_⟩, hr⟩
          simp [hb]

lemma scanQuoted_eq_of_quoteEnds {q : Char} {e : Bool} (hq : q ≠ '\\') {body rest : List Char}
    {closed : Bool} (h : QuoteEnds q e body closed rest) :
    scanQuoted q e (body ++ closing q closed ++ rest) = ⟨body, closed, rest⟩ := by
  cases closed with
  | true =>
      have hb : QuotedBody q e body := h
      rw [List.append_assoc, scanQuoted_body_append hb, closing, List.singleton_append,
        scanQuoted_close fun _ => hq]
      simp [Quoted.cons]
  | false =>
      obtain ⟨hb | ⟨rfl, init, hi, rfl⟩, rfl⟩ := h
      · rw [closing, List.append_nil, scanQuoted_body_append hb, scanQuoted]
        simp [Quoted.cons]
      · rw [closing, List.append_nil, List.append_nil, scanQuoted_body_append hi, scanQuoted]
        simp [Quoted.cons, Ne.symm hq]

/-! ## Segments -/

/-- A segment ends where it does if `rest` follows it on the line. -/
def Munched : Primary → List Char → Prop
  | bareword t, rest => t ≠ [] ∧ (∀ c ∈ t, isBareChar c = true) ∧ Stops isBareChar rest
  | singleQuoted body closed, rest => QuoteEnds '\'' false body closed rest
  | doubleQuoted body closed, rest => QuoteEnds '"' true body closed rest
  | reference name, rest => (∀ c ∈ name, isVariableChar c = true) ∧ Stops isVariableChar rest

lemma munched_scan {c : Char} (cs : List Char) (hs : isSpace c = false)
    (ht : isTerminator c = false) : (scan c cs).1.Munched (scan c cs).2 := by
  rw [scan]
  split
  · exact quoteEnds_scanQuoted '\'' false cs
  · next h1 =>
    split
    · exact quoteEnds_scanQuoted '"' true cs
    · next h2 =>
      split
      · exact ⟨fun d hd => List.mem_takeWhile_imp hd, stops_dropWhile _ _⟩
      · next h3 =>
        have hc : isBareChar c = true := isBareChar_iff.2 ⟨hs, ht, h1, h2, h3⟩
        refine ⟨by simp, ?_, stops_dropWhile _ _⟩
        intro d hd
        rcases List.mem_cons.1 hd with rfl | hd
        · exact hc
        · exact List.mem_takeWhile_imp hd

lemma scan_eq_of_munched {p : Primary} {rest cs : List Char} {c : Char} (h : p.Munched rest)
    (ht : p.text ++ rest = c :: cs) : scan c cs = (p, rest) := by
  cases p with
  | bareword t =>
      obtain ⟨hne, hall, hstop⟩ := h
      obtain ⟨d, t, rfl⟩ := List.exists_cons_of_ne_nil hne
      obtain ⟨rfl, rfl⟩ : d = c ∧ t ++ rest = cs := by simpa [text] using ht
      obtain ⟨-, -, h1, h2, h3⟩ := isBareChar_iff.1 (hall d (by simp))
      have hall' : ∀ x ∈ t, isBareChar x = true := fun x hx => hall x (List.mem_cons_of_mem _ hx)
      simp [scan, h1, h2, h3, takeWhile_append_of_stops hall' hstop,
        dropWhile_append_of_stops hall' hstop]
  | singleQuoted body closed =>
      obtain ⟨rfl, rfl⟩ : '\'' = c ∧ body ++ closing '\'' closed ++ rest = cs := by
        simpa [text, quote] using ht
      simp [scan, scanQuoted_eq_of_quoteEnds (by decide) h, -List.append_assoc]
  | doubleQuoted body closed =>
      obtain ⟨rfl, rfl⟩ : '"' = c ∧ body ++ closing '"' closed ++ rest = cs := by
        simpa [text, quote] using ht
      simp [scan, scanQuoted_eq_of_quoteEnds (by decide) h, -List.append_assoc]
  | reference name =>
      obtain ⟨rfl, rfl⟩ : '$' = c ∧ name ++ rest = cs := by simpa [text] using ht
      simp [scan, takeWhile_append_of_stops h.1 h.2, dropWhile_append_of_stops h.1 h.2]

/-- A segment begins with a character that is neither a blank nor a terminator. -/
lemma Munched.exists_text_eq_cons {p : Primary} {rest : List Char} (h : p.Munched rest) :
    ∃ c cs, p.text = c :: cs ∧ isSpace c = false ∧ isTerminator c = false := by
  cases p with
  | bareword t =>
      obtain ⟨c, t, rfl⟩ := List.exists_cons_of_ne_nil h.1
      have hc := isBareChar_iff.1 (h.2.1 c (by simp))
      exact ⟨c, t, rfl, hc.1, hc.2.1⟩
  | singleQuoted body closed => exact ⟨'\'', _, rfl, by decide, by decide⟩
  | doubleQuoted body closed => exact ⟨'"', _, rfl, by decide, by decide⟩
  | reference name => exact ⟨'$', name, rfl, by decide, by decide⟩

end Primary

/-! ## Lexemes -/

namespace Lexeme

/-- A lexeme ends where it does if `rest` follows it on the line. -/
def Munched : Lexeme → List Char → Prop
  | terminator c, _ => isTerminator c = true
  | space t, rest => t ≠ [] ∧ (∀ c ∈ t, isSpace c = true) ∧ Stops isSpace rest
  | primary p, rest => p.Munched rest

lemma munched_scan (c : Char) (cs : List Char) : (scan c cs).1.Munched (scan c cs).2 := by
  rw [scan]
  split
  · next ht => exact ht
  · next ht =>
    split
    · next hs =>
      refine ⟨by simp, ?_, stops_dropWhile _ _⟩
      intro d hd
      rcases List.mem_cons.1 hd with rfl | hd
      · exact hs
      · exact List.mem_takeWhile_imp hd
    · next hs => exact Primary.munched_scan cs (by simpa using hs) (by simpa using ht)

lemma scan_eq_of_munched {l : Lexeme} {rest cs : List Char} {c : Char} (h : l.Munched rest)
    (ht : l.text ++ rest = c :: cs) : scan c cs = (l, rest) := by
  cases l with
  | terminator d =>
      obtain ⟨rfl, rfl⟩ : d = c ∧ rest = cs := by simpa [text] using ht
      have hd : isTerminator d = true := h
      simp [scan, hd]
  | space t =>
      obtain ⟨hne, hall, hstop⟩ := h
      obtain ⟨d, t, rfl⟩ := List.exists_cons_of_ne_nil hne
      obtain ⟨rfl, rfl⟩ : d = c ∧ t ++ rest = cs := by simpa [text] using ht
      have hs : isSpace d = true := hall d (by simp)
      have hall' : ∀ x ∈ t, isSpace x = true := fun x hx => hall x (List.mem_cons_of_mem _ hx)
      simp [scan, hs, isTerminator_of_isSpace hs, takeWhile_append_of_stops hall' hstop,
        dropWhile_append_of_stops hall' hstop]
  | primary p =>
      obtain ⟨d, t, hp, hs, hterm⟩ := Primary.Munched.exists_text_eq_cons h
      have hc : d = c ∧ t ++ rest = cs := by simpa [text, hp] using ht
      obtain rfl := hc.1
      have hscan : Primary.scan d cs = (p, rest) := Primary.scan_eq_of_munched h ht
      simp [scan, hs, hterm, hscan]

lemma Munched.text_ne_nil {l : Lexeme} {rest : List Char} (h : l.Munched rest) : l.text ≠ [] := by
  cases l with
  | terminator c => exact List.cons_ne_nil _ _
  | space t => exact h.1
  | primary p =>
      obtain ⟨c, cs, hp, -, -⟩ := Primary.Munched.exists_text_eq_cons h
      rw [text, hp]
      exact List.cons_ne_nil _ _

/-- A row of lexemes each of which ends where it does, with `rest` after the last one. -/
def Row : List Lexeme → List Char → Prop
  | [], _ => True
  | l :: ls, rest => l.Munched (ls.flatMap text ++ rest) ∧ Row ls rest

lemma row_append_iff {ls ms : List Lexeme} {rest : List Char} :
    Row (ls ++ ms) rest ↔ Row ls (ms.flatMap text ++ rest) ∧ Row ms rest := by
  induction ls with
  | nil => simp [Row]
  | cons l ls ih => simp [Row, ih, and_assoc]

end Lexeme

lemma row_lex (cs : List Char) : Lexeme.Row (lex cs) [] := by
  fun_induction lex cs with
  | case1 => trivial
  | case2 c cs ih =>
      refine ⟨?_, ih⟩
      rw [List.append_nil, lex_flatMap_text]
      exact Lexeme.munched_scan c cs

/-- **The lexemes of a line are its only row of munched lexemes.** -/
theorem lex_eq_iff {cs : List Char} {ls : List Lexeme} :
    lex cs = ls ↔ ls.flatMap Lexeme.text = cs ∧ Lexeme.Row ls [] := by
  constructor
  · rintro rfl
    exact ⟨lex_flatMap_text cs, row_lex cs⟩
  · rintro ⟨rfl, h⟩
    induction ls with
    | nil => exact lex_nil
    | cons l ls ih =>
        obtain ⟨hl, hrow⟩ := h
        rw [List.append_nil] at hl
        obtain ⟨c, cs, hc⟩ := List.exists_cons_of_ne_nil hl.text_ne_nil
        have ht : l.text ++ ls.flatMap Lexeme.text = c :: (cs ++ ls.flatMap Lexeme.text) := by
          rw [hc, List.cons_append]
        rw [List.flatMap_cons, ht, lex_cons, Lexeme.scan_eq_of_munched hl ht, ih hrow]

end LineShell
