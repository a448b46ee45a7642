import LineShell.Proofs.Cover

/-!
# What quoted strings mean

The scanner finds the closing quote of a string by reading it part by part, where a backslash takes
the next character with it.  The value of the string is made from its text alone: one quote at the
very end counts as the closing one.  The two agree, except on a string that is not closed and whose
last part is an escaped quote.  There the quote is taken from its backslash.

* `QuotedPart` — what the scanner reads at a time, as it stands on the line and as it is meant.
* `readParts` — all that it reads behind an opening quote; `flatMap_text_readParts` says that this
  is what the scanner keeps.
* `Primary.resolve_text_readParts` — resolving escapes pairs the characters as the scanner does.
* `QuotedAt` — a string in its place, with all that its text and its value are.
* **`value_follows_scanner_iff`** — the value is what the scanner read in every other case.
-/

namespace LineShell

/-! ## What the scanner reads -/

/-- What the scanner reads at a time between quotes. -/
inductive QuotedPart where
  | plain (c : Char)
  /-- A backslash with the character that it takes along. -/
  | pair (c : Char)
  /-- A backslash at the end of the line. -/
  | lone
  deriving DecidableEq, Repr

namespace QuotedPart

/-- A part as it stands on the line. -/
def text : QuotedPart → List Char
  | plain c => [c]
  | pair c => ['\\', c]
  | lone => ['\\']

/-- What a part means.  A pair that is no escape stands for itself. -/
def meaning : QuotedPart → List Char
  | plain c => [c]
  | pair 'n' => ['\n']
  | pair 't' => ['\t']
  | pair '\\' => ['\\']
  | pair '"' => ['"']
  | pair c => ['\\', c]
  | lone => ['\\']

/-- A part that the scanner reads wherever it stands. -/
def Whole (q : Char) (escapes : Bool) : QuotedPart → Prop
  | plain c => c ≠ q ∧ (escapes = true → c ≠ '\\')
  | pair _ => escapes = true
  | lone => False

end QuotedPart

/-- What the scanner reads behind an opening quote, up to the closing quote or the end. -/
def readParts (q : Char) (escapes : Bool) : List Char → List QuotedPart
  | [] => []
  | [c] => if c = q then [] else [if escapes && c == '\\' then .lone else .plain c]
  | c :: d :: cs =>
    if escapes && c == '\\' then .pair d :: readParts q escapes cs
    else if c = q then []
    else .plain c :: readParts q escapes (d :: cs)

/-- The parts are what the scanner keeps of the line. -/
lemma flatMap_text_readParts (q : Char) (e : Bool) (cs : List Char) :
    (readParts q e cs).flatMap QuotedPart.text = (Primary.scanQuoted q e cs).body := by
  fun_induction readParts q e cs with
  | case1 => rfl
  | case2 => simp [Primary.scanQuoted]
  | case3 c hc =>
      by_cases hb : e = true ∧ c = '\\'
      · obtain ⟨rfl, rfl⟩ := hb
        simp [Primary.scanQuoted, QuotedPart.text, hc]
      · have hplain : (e && c == '\\') = false := by simpa using hb
        simp [Primary.scanQuoted, QuotedPart.text, hc, hplain]
  | case4 c d cs hpair ih =>
      obtain ⟨rfl, rfl⟩ : e = true ∧ c = '\\' := by simpa using hpair
      rw [Primary.scanQuoted_pair, List.flatMap_cons, ih]
      rfl
  | case5 d cs hpair => simp [Primary.scanQuoted, hpair]
  | case6 c d cs hpair hc ih => simp [Primary.scanQuoted, QuotedPart.text, hpair, hc, ih]

/-- Only the last part can be a backslash by itself, and then the string is not closed. -/
lemma whole_readParts (q : Char) (e : Bool) (cs : List Char) :
    (∀ p ∈ readParts q e cs, p.Whole q e) ∨
      ∃ init, readParts q e cs = init ++ [.lone] ∧ ∀ p ∈ init, p.Whole q e := by
  fun_induction readParts q e cs with
  | case1 | case2 | case5 => exact .inl (by simp)
  | case3 c hc =>
      by_cases hb : e = true ∧ c = '\\'
      · obtain ⟨rfl, rfl⟩ := hb
        exact .inr ⟨[], rfl, by simp⟩
      · have hplain : (e && c == '\\') = false := by simpa using hb
        refine .inl ?_
        rw [hplain]
        simpa [QuotedPart.Whole, hc] using hb
  | case4 c d cs hpair ih =>
      obtain ⟨rfl, rfl⟩ : e = true ∧ c = '\\' := by simpa using hpair
      rcases ih with hall | ⟨init, hinit, hall⟩
      · exact .inl (List.forall_mem_cons.2 ⟨rfl, hall⟩)
      · exact .inr ⟨.pair d :: init, by rw [hinit]; rfl, List.forall_mem_cons.2 ⟨rfl, hall⟩⟩
  | case6 c d cs hpair hc ih =>
      have hwhole : (QuotedPart.plain c).Whole q e := ⟨hc, by simpa using hpair⟩
      rcases ih with hall | ⟨init, hinit, hall⟩
      · exact .inl (List.forall_mem_cons.2 ⟨hwhole, hall⟩)
      · exact .inr ⟨.plain c :: init, by rw [hinit]; rfl, List.forall_mem_cons.2 ⟨hwhole, hall⟩⟩

/-! ## Escapes are resolved as they are read -/

namespace Primary

lemma unescape_pair (c : Char) (cs : List Char) :
    unescape ('\\' :: c :: cs) = (QuotedPart.pair c).meaning ++ unescape cs := by
  by_cases hn : c = 'n'
  · subst hn; rfl
  by_cases ht : c = 't'
  · subst ht; rfl
  by_cases hb : c = '\\'
  · subst hb; rfl
  by_cases hq : c = '"'
  · subst hq; rfl
  simp [unescape, QuotedPart.meaning]

lemma unescape_plain {c : Char} (h : c ≠ '\\') (cs : List Char) :
    unescape (c :: cs) = c :: unescape cs := by
  simp [unescape, h]

/-- Whatever follows them, whole parts are resolved each by itself. -/
lemma unescape_flatMap_text_append {q : Char} {ps : List QuotedPart}
    (h : ∀ p ∈ ps, p.Whole q true) (rest : List Char) :
    unescape (ps.flatMap QuotedPart.text ++ rest)
      = ps.flatMap QuotedPart.meaning ++ unescape rest := by
  induction ps with
  | nil => rfl
  | cons p ps ih =>
      obtain ⟨hp, hps⟩ := List.forall_mem_cons.1 h
      rw [List.flatMap_cons, List.flatMap_cons, List.append_assoc, List.append_assoc, ← ih hps]
      cases p with
      | plain c => exact unescape_plain (hp.2 rfl) _
      | pair c => exact unescape_pair c _
      | lone => exact absurd hp id

/-- What the escapes in the text of a string stand for; without `escapes` there are none. -/
def resolve (escapes : Bool) (cs : List Char) : List Char :=
  if escapes then unescape cs else cs

lemma flatMap_text_eq_meaning {q : Char} {ps : List QuotedPart} (h : ∀ p ∈ ps, p.Whole q false) :
    ps.flatMap QuotedPart.text = ps.flatMap QuotedPart.meaning := by
  refine List.flatMap_congr fun p hp => ?_
  cases p with
  | plain c | lone => rfl
  | pair c => exact absurd (h _ hp) Bool.false_ne_true

lemma resolve_flatMap_text_append {q : Char} {e : Bool} {ps : List QuotedPart}
    (h : ∀ p ∈ ps, p.Whole q e) (rest : List Char) :
    resolve e (ps.flatMap QuotedPart.text ++ rest)
      = ps.flatMap QuotedPart.meaning ++ resolve e rest := by
  cases e with
  | true => exact unescape_flatMap_text_append h rest
  | false => exact congrArg (· ++ rest) (flatMap_text_eq_meaning h)

/-- Resolving the escapes of what the scanner kept gives what it read. -/
lemma resolve_text_readParts (q : Char) (e : Bool) (cs : List Char) :
    resolve e ((readParts q e cs).flatMap QuotedPart.text)
      = (readParts q e cs).flatMap QuotedPart.meaning := by
  have hnil : resolve e [] = [] := by cases e <;> rfl
  have hlone : resolve e ['\\'] = ['\\'] := by cases e <;> rfl
  rcases whole_readParts q e cs with hall | ⟨init, hinit, hall⟩
  · simpa [hnil] using resolve_flatMap_text_append hall []
  · rw [hinit, List.flatMap_append, List.flatMap_append]
    simpa [QuotedPart.text, QuotedPart.meaning, hlone] using resolve_flatMap_text_append hall ['\\']

/-! ## The end of a text -/

lemma dropFinalQuote_of_ne {q : Char} {cs : List Char} (h : cs.getLast? ≠ some q) :
    dropFinalQuote q cs = cs :=
  if_neg h

lemma dropFinalQuote_append (q : Char) (cs : List Char) : dropFinalQuote q (cs ++ [q]) = cs := by
  simp [dropFinalQuote]

/-- A text without a quote at its start and without one at its end. -/
def stripQuotes (q : Char) (text : List Char) : List Char :=
  dropFinalQuote q (if text.head? = some q then text.tail else text)

lemma stripQuotes_quote (q : Char) (body : List Char) (closed : Bool) :
    stripQuotes q (quote q body closed) = if closed then body else dropFinalQuote q body := by
  cases closed with
  | true => simp [stripQuotes, quote, closing, dropFinalQuote_append]
  | false => simp [stripQuotes, quote, closing]

end Primary

/-- The last character that the scanner kept is a quote only if it belongs to a pair. -/
lemma getLast?_text_ne {q : Char} {e : Bool} (hq : q ≠ '\\') {cs : List Char}
    (h : (readParts q e cs).getLast? ≠ some (.pair q)) :
    ((readParts q e cs).flatMap QuotedPart.text).getLast? ≠ some q := by
  rcases whole_readParts q e cs with hall | ⟨init, hinit, -⟩
  · rcases List.eq_nil_or_concat (readParts q e cs) with hnil | ⟨init, p, hinit⟩
    · simp [hnil]
    · rw [hinit] at h hall ⊢
      have hp : p.Whole q e := hall p (by simp)
      cases p with
      | plain c => simpa [QuotedPart.text] using hp.1
      | pair c =>
          have hc : c ≠ q := by simpa using h
          simpa [QuotedPart.text] using hc
      | lone => exact absurd hp id
  · rw [hinit]
    simpa [QuotedPart.text] using Ne.symm hq

/-! ## Strings in their place -/

/-- The quote of a kind of string, and whether a backslash takes a character along in it. -/
def PrimaryKind.quoting? : PrimaryKind → Option (Char × Bool)
  | .singleQuoted => some ('\'', false)
  | .doubleQuoted => some ('"', true)
  | .bareword | .reference => none

lemma PrimaryKind.quote_ne_backslash {k : PrimaryKind} {q : Char} {e : Bool}
    (h : k.quoting? = some (q, e)) : q ≠ '\\' := by
  rintro rfl
  cases k <;> exact absurd h (by simp [quoting?])

lemma Primary.exists_body {p : Primary} {q : Char} {e : Bool}
    (h : p.kind.quoting? = some (q, e)) :
    ∃ body closed, p.text = quote q body closed ∧
      p.value = resolve e (if closed then body else dropFinalQuote q body) ∧
      ∀ rest, p.Munched rest → QuoteEnds q e body closed rest := by
  cases p with
  | singleQuoted body closed =>
      obtain ⟨rfl, rfl⟩ : '\'' = q ∧ false = e := by simpa [kind, PrimaryKind.quoting?] using h
      exact ⟨body, closed, rfl, rfl, fun _ hrest => hrest⟩
  | doubleQuoted body closed =>
      obtain ⟨rfl, rfl⟩ : '"' = q ∧ true = e := by simpa [kind, PrimaryKind.quoting?] using h
      exact ⟨body, closed, rfl, rfl, fun _ hrest => hrest⟩
  | bareword t | reference name => exact absurd h (by simp [kind, PrimaryKind.quoting?])

/-- A string of a line with `cs` behind its opening quote. -/
structure QuotedAt (line : List Char) (n : Node) (q : Char) (escapes : Bool)
    (cs : List Char) : Prop where
  place : ∃ before, line = before ++ q :: cs ∧ byteSize before = n.start
  /-- It covers what the scanner reads, with the closing quote if the scanner stops at one. -/
  text : n.text = Primary.quote q ((readParts q escapes cs).flatMap QuotedPart.text)
    (Primary.scanQuoted q escapes cs).closed
  /-- Its value is read off this text alone. -/
  value : n.value = Primary.resolve escapes (Primary.stripQuotes q n.text)

/-- The scanner comes to the end of the line, and the last that it reads is an escaped quote. -/
def CutsEscape (q : Char) (escapes : Bool) (cs : List Char) : Prop :=
  (Primary.scanQuoted q escapes cs).closed = false ∧
    (readParts q escapes cs).getLast? = some (.pair q)

lemma exists_quotedAt {line : List Char} {n : Node} {k : PrimaryKind} {q : Char} {e : Bool}
    (hn : n ∈ (parse line).nodes) (hkind : n.kind = .primary k) (hk : k.quoting? = some (q, e)) :
    ∃ cs, QuotedAt line n q e cs := by
  obtain ⟨f, w, p, rfl, rfl⟩ := Node.exists_of_kind_eq_primary hkind
  obtain ⟨body, closed, htext, hvalue, hends⟩ := Primary.exists_body hk
  obtain ⟨before, after, hline, hstart, hmunched, -⟩ := rowAt_of_mem_nodes hn
  have hscan := Primary.scanQuoted_eq_of_quoteEnds (PrimaryKind.quote_ne_backslash hk)
    (hends after hmunched)
  have htext : (Node.primary f w p).text = Primary.quote q body closed := htext
  refine ⟨body ++ Primary.closing q closed ++ after, ⟨before, ?_, hstart⟩, ?_, ?_⟩
  · rw [Node.flatMap_text_lexemes, htext] at hline
    simpa [Primary.quote] using hline
  · rw [flatMap_text_readParts, hscan, htext]
  · rw [htext, Primary.stripQuotes_quote]
    exact hvalue

namespace QuotedAt

variable {line : List Char} {n : Node} {q : Char} {e : Bool} {cs : List Char}

lemma value_eq (h : QuotedAt line n q e cs) :
    n.value = Primary.resolve e (if (Primary.scanQuoted q e cs).closed
      then (readParts q e cs).flatMap QuotedPart.text
      else Primary.dropFinalQuote q ((readParts q e cs).flatMap QuotedPart.text)) := by
  rw [h.value, h.text, Primary.stripQuotes_quote]

lemma value_of_not_cuts (h : QuotedAt line n q e cs) (hq : q ≠ '\\')
    (hcuts : ¬ CutsEscape q e cs) : n.value = (readParts q e cs).flatMap QuotedPart.meaning := by
  rw [h.value_eq, ← Primary.resolve_text_readParts]
  split
  · rfl
  · next hopen =>
    have hlast : (readParts q e cs).getLast? ≠ some (.pair q) :=
      fun hlast => hcuts ⟨by simpa using hopen, hlast⟩
    rw [Primary.dropFinalQuote_of_ne (getLast?_text_ne hq hlast)]

/-- The quote is taken for the closing one, and the backslash before it is left over. -/
lemma value_of_cuts (h : QuotedAt line n q e cs) (hcuts : CutsEscape q e cs) :
    n.value = (readParts q e cs).dropLast.flatMap QuotedPart.meaning ++ ['\\'] := by
  obtain ⟨hopen, hlast⟩ := hcuts
  obtain ⟨init, hinit⟩ := List.getLast?_eq_some_iff.1 hlast
  have hwhole : ∀ p ∈ init, p.Whole q e := by
    rcases whole_readParts q e cs with hall | ⟨init', hinit', -⟩
    · exact fun p hp => hall p (by simp [hinit, hp])
    · exact absurd (List.append_inj_right' (hinit.symm.trans hinit') rfl) (by simp)
  have htext : (init ++ [QuotedPart.pair q]).flatMap QuotedPart.text
      = (init.flatMap QuotedPart.text ++ ['\\']) ++ [q] := by
    simp [QuotedPart.text]
  have hlone : Primary.resolve e ['\\'] = ['\\'] := by cases e <;> rfl
  rw [h.value_eq, hopen, if_neg Bool.false_ne_true, hinit, htext, Primary.dropFinalQuote_append,
    Primary.resolve_flatMap_text_append hwhole, hlone, List.dropLast_concat]

end QuotedAt

/-- **A string means what the scanner read in it**, unless the line ends with an escaped quote
before the string is closed. -/
theorem value_follows_scanner_iff {line : List Char} {n : Node} {k : PrimaryKind} {q : Char}
    {e : Bool} (hn : n ∈ (parse line).nodes) (hkind : n.kind = .primary k)
    (hk : k.quoting? = some (q, e)) :
    ∃ cs, QuotedAt line n q e cs ∧
      (n.value = (readParts q e cs).flatMap QuotedPart.meaning ↔ ¬ CutsEscape q e cs) ∧
      (CutsEscape q e cs →
        n.value = (readParts q e cs).dropLast.flatMap QuotedPart.meaning ++ ['\\']) := by
  obtain ⟨cs, hat⟩ := exists_quotedAt hn hkind hk
  refine ⟨cs, hat, ⟨?_, hat.value_of_not_cuts (PrimaryKind.quote_ne_backslash hk)⟩,
    hat.value_of_cuts⟩
  intro hvalue hcuts
  obtain ⟨init, hinit⟩ := List.getLast?_eq_some_iff.1 hcuts.2
  have hends := (hat.value_of_cuts hcuts).symm.trans hvalue
  rw [hinit, List.dropLast_concat, List.flatMap_append] at hends
  have hlast : ['\\'] = (QuotedPart.pair q).meaning := by
    simpa using List.append_cancel_left hends
  cases k with
  | singleQuoted | doubleQuoted =>
      obtain ⟨rfl, rfl⟩ := Prod.mk.inj (Option.some.inj hk)
      exact absurd hlast (by decide)
  | bareword | reference => exact absurd hk (by simp [PrimaryKind.quoting?])

/-- Behind an escaped backslash, too, the escaped quote is cut. -/
theorem value_follows_scanner_behind_backslash :
    ∃ n ∈ (parse "x\"\\\\\\\"".toList).nodes, n.kind = .primary .doubleQuoted ∧
      PrimaryKind.doubleQuoted.quoting? = some ('"', true) ∧
      CutsEscape '"' true "\\\\\\\"".toList ∧ n.value = ['\\', '\\'] := by
  have hlex : lex "x\"\\\\\\\"".toList
      = [.primary (.bareword ['x']), .primary (.doubleQuoted ['\\', '\\', '\\', '"'] false)] := by
    simp [lex_cons, Lexeme.scan, Primary.scan, Primary.scanQuoted, Primary.Quoted.cons,
      isTerminator, isSpace, isBareChar]
  obtain ⟨n, hn, hkind, hstart⟩ : ∃ n ∈ (parse "x\"\\\\\\\"".toList).nodes,
      n.kind = .primary .doubleQuoted ∧ n.start = 1 := by
    rw [parse, hlex]
    decide
  obtain ⟨cs, hat, -, hcut⟩ := value_follows_scanner_iff hn hkind rfl
  obtain ⟨before, hline, hbefore⟩ := hat.place
  obtain ⟨rfl, hcs⟩ : ['x'] = before ∧ "\"\\\\\\\"".toList = '"' :: cs :=
    append_inj_of_byteSize hline (hbefore.trans hstart).symm
  obtain rfl : "\\\\\\\"".toList = cs := (List.cons.inj hcs).2
  have hcuts : CutsEscape '"' true "\\\\\\\"".toList := ⟨by decide, by decide⟩
  exact ⟨n, hn, hkind, rfl, hcuts, hcut hcuts⟩

/-- The scanner reads an escaped quote, and the value ends with the backslash. -/
theorem escaped_quote_cut_at_end :
    Primary.scanQuoted '"' true "a\\\"".toList = ⟨"a\\\"".toList, false, []⟩ ∧
      (readParts '"' true "a\\\"".toList).flatMap QuotedPart.meaning = "a\"".toList ∧
      ∃ n ∈ (parse "\"a\\\"".toList).nodes, n.kind = .primary .doubleQuoted ∧ n.start = 0 ∧
        n.value = "a\\".toList := by
  have hlex : lex "\"a\\\"".toList = [.primary (.doubleQuoted ['a', '\\', '"'] false)] := by
    simp [lex_cons, Lexeme.scan, Primary.scan, Primary.scanQuoted, Primary.Quoted.cons,
      isTerminator, isSpace]
  refine ⟨by decide, by decide, ?_⟩
  rw [parse, hlex]
  decide

end LineShell
