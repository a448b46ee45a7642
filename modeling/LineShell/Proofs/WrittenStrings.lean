import LineShell.Toml.Token
import LineShell.Toml.Writer
import Mathlib.Tactic.Common
import Mathlib.Tactic.SplitIfs

/-!
# Strings that are written

A string is written in one of four forms, and is read back from each.  The reader knows nothing of
how a form was chosen: it takes the quotes in front, goes on until the same quotes come again, and
makes the text of what stands between them.  So what a writer has to see to is that no quotes inside
end the string early, and that what stands inside means the text.

* `Inside` — what may stand between quotes; `scanBody_of_inside` reads to the closing quotes.
* `unescape_escapeFrom` — escapes mean the characters they were made for.
* `Quoting.Suits` — a form that can hold a text; `choose_suits` says that the chosen one can.
* **`scan_writeString`** — what is written of a text is one string, and the string is the text.
-/

namespace LineShell.Toml

/-! ## Between the quotes -/

/-- How many quotes may stand together inside a string. -/
def quotesWithin (multiline : Bool) : Nat :=
  if multiline then 2 else 0

/-- What may stand inside a string, after so many quotes. -/
inductive Inside (q : Char) (escapes multiline : Bool) : Nat → List Char → Prop
  | nil {run : Nat} : Inside q escapes multiline run []
  | quote {run : Nat} {cs : List Char} : run < quotesWithin multiline →
      Inside q escapes multiline (run + 1) cs → Inside q escapes multiline run (q :: cs)
  /-- A backslash takes the next character with it. -/
  | escape {run : Nat} {c : Char} {cs : List Char} : escapes = true →
      Inside q escapes multiline 0 cs → Inside q escapes multiline run ('\\' :: c :: cs)
  | plain {run : Nat} {c : Char} {cs : List Char} : c ≠ q → (escapes = true → c ≠ '\\') →
      (multiline = false → c ≠ '\n') → Inside q escapes multiline 0 cs →
      Inside q escapes multiline run (c :: cs)

/-- The quotes on either side of a string. -/
def quotes (q : Char) (multiline : Bool) : List Char :=
  if multiline then [q, q, q] else [q]

section scan

variable {q : Char} {escapes multiline : Bool} {run : Nat} {body rest : List Char}

/-- A string ends at its quotes, up to two more of which belong to it. -/
lemma closeString_quotes {k : Nat} (hk : k ≤ quotesWithin multiline) (hrest : rest.head? ≠ some q) :
    closeString q multiline (List.replicate k q ++ (quotes q multiline ++ rest))
      = some (List.replicate k q, rest) := by
  have hstop : rest.takeWhile (· == q) = [] := by
    cases rest with
    | nil => rfl
    | cons c rest =>
        have hc : c ≠ q := by simpa using hrest
        simp [hc]
  cases multiline with
  | false =>
      obtain rfl := Nat.le_zero.1 hk
      simp [closeString, quotes]
  | true =>
      match k, hk with
      | 0, _ | 1, _ | 2, _ =>
          simp [closeString, quotes, List.replicate_succ, hstop]

lemma closeString_of_ne {c : Char} {cs : List Char} {k : Nat} (hk : k ≤ quotesWithin multiline)
    (hc : c ≠ q) : closeString q multiline (List.replicate k q ++ c :: cs) = none := by
  cases multiline with
  | false =>
      obtain rfl := Nat.le_zero.1 hk
      simp [closeString, hc.symm]
  | true =>
      match k, hk with
      | 0, _ | 1, _ | 2, _ => simp [closeString, List.replicate_succ, hc.symm]

/-- Quotes at the front of an inside either are all of it or end before another character. -/
lemma Inside.front (h : Inside q escapes multiline run body) (hq : q ≠ '\\')
    (hrun : run ≤ quotesWithin multiline) :
    ∃ k, run + k ≤ quotesWithin multiline ∧
      (body = List.replicate k q ∨ ∃ c cs, c ≠ q ∧ body = List.replicate k q ++ c :: cs) := by
  induction h with
  | nil => exact ⟨0, hrun, .inl rfl⟩
  | @quote run cs hlt _ ih =>
      obtain ⟨k, hk, hbody⟩ := ih hlt
      refine ⟨k + 1, by omega, ?_⟩
      rcases hbody with rfl | ⟨c, ds, hc, rfl⟩
      · exact .inl rfl
      · exact .inr ⟨c, ds, hc, rfl⟩
  | @escape _ c cs => exact ⟨0, hrun, .inr ⟨'\\', c :: cs, hq.symm, rfl⟩⟩
  | @plain _ c cs hc => exact ⟨0, hrun, .inr ⟨c, cs, hc, rfl⟩⟩

/-! The three ways in which the reader goes on. -/

lemma scanBody_of_closeString {cs : List Char} {ends : List Char × List Char}
    (h : closeString q multiline cs = some ends) :
    scanBody q escapes multiline cs = some ends := by
  cases cs with
  | nil => cases multiline <;> simp [closeString] at h
  | cons c cs =>
      rw [scanBody.eq_def]
      simp only [h]

lemma scanBody_escape {c : Char} {cs : List Char} (he : escapes = true)
    (h : closeString q multiline ('\\' :: c :: cs) = none) :
    scanBody q escapes multiline ('\\' :: c :: cs)
      = (scanBody q escapes multiline cs).map fun r => ('\\' :: c :: r.1, r.2) := by
  rw [scanBody.eq_def]
  simp [h, he]

lemma scanBody_plain {c : Char} {cs : List Char} (he : escapes = true → c ≠ '\\')
    (hn : multiline = false → c ≠ '\n') (h : closeString q multiline (c :: cs) = none) :
    scanBody q escapes multiline (c :: cs)
      = (scanBody q escapes multiline cs).map fun r => (c :: r.1, r.2) := by
  rw [scanBody.eq_def]
  cases escapes <;> cases multiline <;> simp_all

/-- **What may stand inside a string is read up to the quotes behind it.** -/
theorem scanBody_of_inside (h : Inside q escapes multiline run body) (hq : q ≠ '\\')
    (hrun : run ≤ quotesWithin multiline) (hrest : rest.head? ≠ some q) :
    scanBody q escapes multiline (body ++ (quotes q multiline ++ rest)) = some (body, rest) := by
  induction h with
  | nil => exact scanBody_of_closeString (closeString_quotes (Nat.zero_le _) hrest)
  | @quote run cs hlt hcs ih =>
      -- If only quotes follow, they stand before the closing ones and the string ends here already.
      obtain ⟨k, hk, hfront⟩ := hcs.front hq hlt
      have hsucc : k + 1 ≤ quotesWithin multiline := by omega
      rcases hfront with rfl | ⟨c, ds, hc, rfl⟩
      · exact scanBody_of_closeString (closeString_quotes hsucc hrest)
      · have hmulti : multiline = true := by
          cases multiline with
          | false => exact absurd hlt (Nat.not_lt_zero _)
          | true => rfl
        have hopen : closeString q multiline
            (q :: (List.replicate k q ++ c :: ds ++ (quotes q multiline ++ rest))) = none := by
          rw [List.append_assoc]
          exact closeString_of_ne hsucc hc
        rw [List.cons_append, scanBody_plain (fun _ => hq) (by simp [hmulti]) hopen, ih hlt]
        rfl
  | escape he _ ih =>
      rw [List.cons_append, List.cons_append,
        scanBody_escape he (closeString_of_ne (k := 0) (Nat.zero_le _) hq.symm), ih (Nat.zero_le _)]
      rfl
  | plain hc he hn _ ih =>
      rw [List.cons_append,
        scanBody_plain he hn (closeString_of_ne (k := 0) (Nat.zero_le _) hc), ih (Nat.zero_le _)]
      rfl

end scan

/-! ## Escapes -/

/-- What may be written for a character other than a double quote. -/
inductive Escaped (multiline : Bool) (c : Char) : List Char → Prop
  | plain : c ≠ '\\' → isControl c = false → (multiline = false → c ≠ '\n') →
      Escaped multiline c [c]
  | short {d : Char} : shortEscape? d = some c → Escaped multiline c ['\\', d]
  | code : isControl c = true → Escaped multiline c
      ['\\', 'u', '0', '0', hexDigit (c.toNat / 16), hexDigit (c.toNat % 16)]

lemma escaped_escapeChar (multiline : Bool) (c : Char) :
    Escaped multiline c (escapeChar multiline c) := by
  unfold escapeChar
  split_ifs with hb ht hn hm hf hr hs hcontrol
  · exact .short (by rw [hb]; rfl)
  · exact .short (by rw [ht]; rfl)
  · subst hn
    exact .plain (by decide) rfl (by simp [hm])
  · exact .short (by rw [hn]; rfl)
  · exact .short (by rw [hf]; rfl)
  · exact .short (by rw [hr]; rfl)
  · exact .short (by rw [hs]; rfl)
  · exact .code hcontrol
  · exact .plain hs (by simpa using hcontrol) fun _ => hn

lemma toNat_lt_of_isControl {c : Char} (h : isControl c = true) : c.toNat < 256 := by
  simp only [isControl, Bool.or_eq_true, Bool.and_eq_true, decide_eq_true_eq, beq_iff_eq] at h
  rcases h with ⟨⟨h, -⟩, -⟩ | rfl
  · omega
  · decide

lemma hexDigit_spec : ∀ n < 16, hexValue? (hexDigit n) = some n ∧ isAllowed (hexDigit n) = true ∧
    hexDigit n ≠ '"' ∧ hexDigit n ≠ '\\' ∧ hexDigit n ≠ '\n' := by
  decide

section escaped

variable {multiline : Bool} {c : Char} {cs ds : List Char}

/-- What is written for a character means it. -/
lemma Escaped.unescape_eq (h : Escaped multiline c ds) :
    unescape multiline .plain (ds ++ cs) = (unescape multiline .plain cs).map (c :: ·) := by
  cases h with
  | plain hslash => simp [unescape, hslash]
  | short hd => simp [unescape, hd]
  | code hcontrol =>
      have hlt := toNat_lt_of_isControl hcontrol
      have hhigh := (hexDigit_spec (c.toNat / 16) (by omega)).1
      have hlow := (hexDigit_spec (c.toNat % 16) (by omega)).1
      have hsum : 16 * (c.toNat / 16) + c.toNat % 16 = c.toNat := Nat.div_add_mod _ _
      have hzero : hexValue? '0' = some 0 := rfl
      have hchar : charOfCode? c.toNat = some c := by
        rw [charOfCode?, if_pos (show c.toNat.isValidChar from c.valid), Char.ofNat_toNat]
      simp [unescape, shortEscape?, codeLength?, hhigh, hlow, hsum, hzero, hchar]

/-- It does not end a string. -/
lemma Escaped.inside (h : Escaped multiline c ds) (hc : c ≠ '"') {run : Nat}
    (hcs : Inside '"' true multiline 0 cs) : Inside '"' true multiline run (ds ++ cs) := by
  cases h with
  | plain hslash _ hline => exact .plain hc (fun _ => hslash) hline hcs
  | short => exact .escape rfl hcs
  | code hcontrol =>
      have hlt := toNat_lt_of_isControl hcontrol
      obtain ⟨-, -, hq, hs, hn⟩ := hexDigit_spec (c.toNat / 16) (by omega)
      obtain ⟨-, -, hq', hs', hn'⟩ := hexDigit_spec (c.toNat % 16) (by omega)
      have hdigit : ∀ {run : Nat}, Inside '"' true multiline run (hexDigit (c.toNat % 16) :: cs) :=
        .plain hq' (fun _ => hs') (fun _ => hn') hcs
      have hzero : ∀ {run : Nat} {es : List Char}, Inside '"' true multiline 0 es →
          Inside '"' true multiline run ('0' :: es) :=
        .plain (by decide) (fun _ => by decide) (fun _ => by decide)
      exact .escape rfl (hzero (hzero (.plain hq (fun _ => hs) (fun _ => hn) hdigit)))

lemma isAllowed_of_not_isControl (h : isControl c = false) : isAllowed c = true := by
  simp only [isControl, Bool.or_eq_false_iff, Bool.and_eq_false_iff, decide_eq_false_iff_not,
    bne_eq_false_iff_eq, beq_eq_false_iff_ne] at h
  simp only [isAllowed, Bool.or_eq_true, Bool.and_eq_true, decide_eq_true_eq, beq_iff_eq,
    bne_iff_ne]
  obtain ⟨(hle | rfl) | rfl, hdelete⟩ := h
  · exact .inr ⟨by omega, hdelete⟩
  · exact .inl (.inl rfl)
  · exact .inl (.inr rfl)

lemma isAllowed_of_shortEscape? {d : Char} (h : shortEscape? d = some c) :
    isAllowed d = true ∧ d ≠ '\n' := by
  unfold shortEscape? at h
  split at h <;> first | decide | exact absurd h (by simp)

/-- It is made of characters that a document may hold, and no line ends are new. -/
lemma Escaped.allowed (h : Escaped multiline c ds) :
    ∀ d ∈ ds, isAllowed d = true ∧ (d = '\n' → c = '\n') := by
  cases h with
  | plain _ hcontrol =>
      intro d hd
      obtain rfl := List.mem_singleton.1 hd
      exact ⟨isAllowed_of_not_isControl hcontrol, id⟩
  | @short e he =>
      obtain ⟨hallowed, hline⟩ := isAllowed_of_shortEscape? he
      simp [hallowed, hline]
      decide
  | code hcontrol =>
      have hlt := toNat_lt_of_isControl hcontrol
      obtain ⟨-, ha, -, -, hn⟩ := hexDigit_spec (c.toNat / 16) (by omega)
      obtain ⟨-, ha', -, -, hn'⟩ := hexDigit_spec (c.toNat % 16) (by omega)
      simp [ha, hn, ha', hn']
      decide

end escaped

/-- **What is written between double quotes means the text.** -/
theorem unescape_escapeFrom (multiline : Bool) (run : Nat) (cs : List Char) :
    unescape multiline .plain (escapeFrom multiline run cs) = some cs := by
  fun_induction escapeFrom multiline run cs with
  | case1 => simp [unescape]
  | case2 run cs _ ih => simp [unescape, shortEscape?, ih]
  | case3 run cs _ ih => simp [unescape, ih]
  | case4 run c cs _ ih => rw [(escaped_escapeChar multiline c).unescape_eq, ih]; rfl

lemma inside_escapeFrom (multiline : Bool) (run : Nat) (cs : List Char) :
    Inside '"' true multiline run (escapeFrom multiline run cs) := by
  fun_induction escapeFrom multiline run cs with
  | case1 => exact .nil
  | case2 run cs _ ih => exact .escape rfl ih
  | case3 run cs hrun ih => exact .quote (Nat.not_le.1 hrun) ih
  | case4 run c cs hc ih => exact (escaped_escapeChar multiline c).inside hc ih

lemma allowed_escapeFrom (multiline : Bool) (run : Nat) (cs : List Char) :
    ∀ d ∈ escapeFrom multiline run cs, isAllowed d = true ∧ (d = '\n' → '\n' ∈ cs) := by
  fun_induction escapeFrom multiline run cs with
  | case1 => simp
  | case2 run cs _ ih =>
      rw [List.forall_mem_cons, List.forall_mem_cons]
      exact ⟨⟨rfl, by simp⟩, ⟨rfl, by simp⟩, fun d hd =>
        (ih d hd).imp_right fun hline hd => List.mem_cons_of_mem _ (hline hd)⟩
  | case3 run cs _ ih =>
      rw [List.forall_mem_cons]
      exact ⟨⟨rfl, by simp⟩, fun d hd =>
        (ih d hd).imp_right fun hline hd => List.mem_cons_of_mem _ (hline hd)⟩
  | case4 run c cs _ ih =>
      rw [List.forall_mem_append]
      constructor
      · intro d hd
        refine ((escaped_escapeChar multiline c).allowed d hd).imp_right fun hline hd => ?_
        exact List.mem_cons.2 (.inl (hline hd).symm)
      · intro d hd
        exact (ih d hd).imp_right fun hline hd => List.mem_cons_of_mem _ (hline hd)

/-! ## Runs of quotes -/

lemma foldl_max_le_iff {n : Nat} (a : Nat) (ns : List Nat) :
    ns.foldl max a ≤ n ↔ a ≤ n ∧ ∀ m ∈ ns, m ≤ n := by
  induction ns generalizing a with
  | nil => simp
  | cons m ns ih => rw [List.foldl_cons, ih, Nat.max_le, List.forall_mem_cons, and_assoc]

/-- A text without escapes does not end early if its runs of quotes are short. -/
lemma inside_of_runs {q : Char} {multiline : Bool} {run : Nat} {cs : List Char}
    {first : List Char} {others : List (List Char)}
    (hruns : cs.splitOnP (· != q) = first :: others)
    (hfirst : run + first.length ≤ quotesWithin multiline)
    (hothers : ∀ r ∈ others, r.length ≤ quotesWithin multiline)
    (hline : multiline = false → '\n' ∉ cs) : Inside q false multiline run cs := by
  induction cs generalizing run first others with
  | nil => exact .nil
  | cons c cs ih =>
      have hline' : multiline = false → '\n' ∉ cs := fun hm hmem =>
        hline hm (List.mem_cons_of_mem _ hmem)
      obtain ⟨first', others', hruns'⟩ :=
        List.exists_cons_of_ne_nil (List.splitOnP_ne_nil (· != q) cs)
      rw [List.splitOnP_cons_eq_if_modifyHead, hruns'] at hruns
      by_cases hc : c = q
      · subst hc
        simp at hruns
        obtain ⟨rfl, rfl⟩ := hruns
        rw [List.length_cons] at hfirst
        exact .quote (by omega) (ih hruns' (by omega) hothers hline')
      · rw [if_pos (by simpa using hc), List.cons.injEq] at hruns
        obtain ⟨rfl, rfl⟩ := hruns
        rw [List.forall_mem_cons] at hothers
        refine .plain hc (by simp) (fun hm heq => hline hm (by simp [heq])) ?_
        exact ih hruns' (by omega) hothers.2 hline'

lemma inside_of_longestRun {q : Char} {multiline : Bool} {cs : List Char}
    (hrun : longestRun q cs ≤ quotesWithin multiline) (hline : multiline = false → '\n' ∉ cs) :
    Inside q false multiline 0 cs := by
  rw [longestRun, foldl_max_le_iff, List.forall_mem_map] at hrun
  obtain ⟨first, others, hruns⟩ := List.exists_cons_of_ne_nil (List.splitOnP_ne_nil (· != q) cs)
  rw [hruns, List.forall_mem_cons] at hrun
  exact inside_of_runs hruns (by omega) hrun.2.2 hline

/-! ## The four forms -/

namespace Quoting

def quote : Quoting → Char
  | basic | multilineBasic => '"'
  | literal | multilineLiteral => '\''

def multiline : Quoting → Bool
  | basic | literal => false
  | multilineBasic | multilineLiteral => true

/-- What stands between the quotes for a text, but for the line end after those in front. -/
def body (cs : List Char) : Quoting → List Char
  | basic => escapeFrom false 0 cs
  | multilineBasic => escapeFrom true 0 cs
  | literal | multilineLiteral => cs

/-- A form can hold a text: its inside does not end early, could stand in a document, has line ends
only for those of the text, and means the text. -/
structure Suits (cs : List Char) (f : Quoting) : Prop where
  inside : Inside f.quote (f.quote == '"') f.multiline 0 (f.body cs)
  allowed : ∀ c ∈ f.body cs, isAllowed c = true
  lineEnd : '\n' ∈ f.body cs → '\n' ∈ cs
  meant : bodyText f.quote f.multiline (f.body cs) = some cs

lemma suits_basic (cs : List Char) : basic.Suits cs where
  inside := inside_escapeFrom false 0 cs
  allowed c hc := (allowed_escapeFrom false 0 cs c hc).1
  lineEnd h := (allowed_escapeFrom false 0 cs _ h).2 rfl
  meant := unescape_escapeFrom false 0 cs

lemma suits_multilineBasic (cs : List Char) : multilineBasic.Suits cs where
  inside := inside_escapeFrom true 0 cs
  allowed c hc := (allowed_escapeFrom true 0 cs c hc).1
  lineEnd h := (allowed_escapeFrom true 0 cs _ h).2 rfl
  meant := unescape_escapeFrom true 0 cs

/-- A text can stand between single quotes where it needs no escapes. -/
lemma suits_literal {cs : List Char} (hcontrol : cs.any isControl = false) (hline : '\n' ∉ cs)
    (hrun : longestRun '\'' cs = 0) : literal.Suits cs where
  inside := inside_of_longestRun (Nat.le_of_eq hrun) fun _ => hline
  allowed c hc := isAllowed_of_not_isControl (by simpa using List.any_eq_false.1 hcontrol c hc)
  lineEnd := id
  meant := rfl

lemma suits_multilineLiteral {cs : List Char} (hcontrol : cs.any isControl = false)
    (hrun : longestRun '\'' cs ≤ 2) : multilineLiteral.Suits cs where
  inside := inside_of_longestRun hrun (by simp [multiline])
  allowed c hc := isAllowed_of_not_isControl (by simpa using List.any_eq_false.1 hcontrol c hc)
  lineEnd := id
  meant := rfl

/-- **The form that is chosen for a text can hold it.** -/
theorem suits_choose (cs : List Char) : (choose cs).Suits cs := by
  unfold choose
  dsimp only
  split_ifs with hbasic hliteral hmulti hmultiLiteral hline
  · exact suits_basic cs
  · simp only [Bool.and_eq_true, Bool.not_eq_true', List.contains_eq_mem, decide_eq_true_eq,
      decide_eq_false_iff_not] at hliteral
    obtain ⟨⟨hcontrol, hnone⟩, hrun⟩ := hliteral
    exact suits_literal hcontrol hnone hrun
  · exact suits_multilineBasic cs
  · simp only [Bool.and_eq_true, Bool.not_eq_true', decide_eq_true_eq] at hmultiLiteral
    exact suits_multilineLiteral hmultiLiteral.1 hmultiLiteral.2
  · exact suits_multilineBasic cs
  · exact suits_basic cs

end Quoting

/-! ## Reading a form -/

section read

variable {q : Char} {body text rest : List Char}

/-- The reader takes a string for one of a single line unless two more quotes follow the first. -/
lemma scanString_of_line (hq : q ≠ '\\') (h : Inside q (q == '"') false 0 body)
    (hmeant : bodyText q false body = some text) (hrest : rest.head? ≠ some q) :
    scanString q (body ++ (quotes q false ++ rest)) = some ⟨text, false, rest⟩ := by
  have hopen : [q, q].isPrefixOf (body ++ (quotes q false ++ rest)) = false := by
    obtain ⟨k, hk, hfront⟩ := h.front hq (Nat.zero_le _)
    obtain rfl : k = 0 := by simpa [quotesWithin] using hk
    rcases hfront with rfl | ⟨c, cs, hc, rfl⟩
    · cases rest with
      | nil => simp [quotes]
      | cons c rest =>
          have hc : q ≠ c := fun heq => hrest (by simp [heq])
          simp [quotes, List.isPrefixOf, hc]
    · simp [List.isPrefixOf, hc.symm]
  simp only [scanString, hopen]
  simp [scanBody_of_inside h hq (Nat.zero_le _) hrest, hmeant]

lemma dropLineEnd_of_body {cs : List Char} (hbody : ∀ c ∈ body, isAllowed c = true)
    (hline : '\n' ∈ body → '\n' ∈ cs) (hq : q ≠ '\n' ∧ q ≠ '\r') :
    dropLineEnd (openingLineEnd cs ++ (body ++ (quotes q true ++ rest)))
      = body ++ (quotes q true ++ rest) := by
  by_cases hcs : '\n' ∈ cs
  · simp [openingLineEnd, hcs, dropLineEnd]
  · have hnone : openingLineEnd cs = [] := by simp [openingLineEnd, hcs]
    rw [hnone, List.nil_append]
    cases body with
    | nil => simp [quotes, dropLineEnd, hq]
    | cons c body =>
        have hn : c ≠ '\n' := fun heq => hcs (hline (by simp [heq]))
        have hr : c ≠ '\r' := fun heq => absurd (hbody c (by simp)) (by rw [heq]; decide)
        simp [dropLineEnd, hn, hr]

lemma scanString_of_lines {cs : List Char} (hq : q ≠ '\\')
    (h : Inside q (q == '"') true 0 body) (hmeant : bodyText q true body = some text)
    (hdrop : dropLineEnd (openingLineEnd cs ++ (body ++ (quotes q true ++ rest)))
      = body ++ (quotes q true ++ rest))
    (hrest : rest.head? ≠ some q) :
    scanString q ([q, q] ++ (openingLineEnd cs ++ (body ++ (quotes q true ++ rest))))
      = some ⟨text, true, rest⟩ := by
  have hopen : [q, q].isPrefixOf
      ([q, q] ++ (openingLineEnd cs ++ (body ++ (quotes q true ++ rest)))) = true := by simp
  simp only [scanString, hopen]
  simp [hdrop, scanBody_of_inside h hq (Nat.zero_le _) hrest, hmeant]

lemma lex_of_scanString {cs : List Char} {s : Scanned} (hq : q = '"' ∨ q = '\'')
    (h : scanString q cs = some s) :
    lex (q :: cs) = (lex s.rest).map (.string s.text s.multiline :: ·) := by
  refine lex_cons ?_
  rcases hq with rfl | rfl <;> simp [Token.scan, Token.ofChar?, h]

end read

namespace Quoting

variable {f : Quoting}

lemma quote_cases (f : Quoting) : f.quote = '"' ∨ f.quote = '\'' := by
  cases f <;> simp [quote]

lemma write_of_line (h : f.multiline = false) (cs : List Char) :
    f.write cs = f.quote :: (f.body cs ++ quotes f.quote false) := by
  cases f with
  | basic | literal => rfl
  | multilineBasic | multilineLiteral => exact absurd h (by decide)

lemma write_of_lines (h : f.multiline = true) (cs : List Char) :
    f.write cs = f.quote :: ([f.quote, f.quote]
      ++ (openingLineEnd cs ++ (f.body cs ++ quotes f.quote true))) := by
  cases f with
  | basic | literal => exact absurd h (by decide)
  | multilineBasic | multilineLiteral => simp [write, body, quotes, quote]

/-- What is written in a form that can hold a text is one token. -/
lemma Suits.lex_write {cs rest : List Char} (h : f.Suits cs) (hrest : rest.head? ≠ some f.quote) :
    lex (f.write cs ++ rest) = (lex rest).map (.string cs f.multiline :: ·) := by
  obtain ⟨hinside, hallowed, hline, hmeant⟩ := h
  have hslash : f.quote ≠ '\\' := by cases f <;> decide
  have hbreak : f.quote ≠ '\n' ∧ f.quote ≠ '\r' := by cases f <;> decide
  cases hm : f.multiline with
  | false =>
      rw [hm] at hinside hmeant
      rw [write_of_line hm, List.cons_append, List.append_assoc]
      exact lex_of_scanString f.quote_cases (scanString_of_line hslash hinside hmeant hrest)
  | true =>
      rw [hm] at hinside hmeant
      rw [write_of_lines hm, List.cons_append, List.append_assoc, List.append_assoc,
        List.append_assoc]
      exact lex_of_scanString f.quote_cases (scanString_of_lines hslash hinside hmeant
        (dropLineEnd_of_body hallowed hline hbreak) hrest)

end Quoting

/-- **What is written of a text is one string, and the string is the text.** -/
theorem lex_writeString {cs rest : List Char} (h : ∀ c ∈ rest.head?, c ≠ '"' ∧ c ≠ '\'') :
    lex (writeString cs ++ rest)
      = (lex rest).map (.string cs (Quoting.choose cs).multiline :: ·) := by
  refine (Quoting.suits_choose cs).lex_write fun hq => ?_
  obtain ⟨hdouble, hsingle⟩ := h _ hq
  rcases (Quoting.choose cs).quote_cases with hquote | hquote
  · exact hdouble hquote
  · exact hsingle hquote

/-- It could stand in any document. -/
theorem allowed_writeString (cs : List Char) : ∀ c ∈ writeString cs, isAllowed c = true := by
  obtain ⟨-, hallowed, -, -⟩ := Quoting.suits_choose cs
  rw [writeString]
  generalize Quoting.choose cs = f at hallowed
  have hquote : isAllowed f.quote = true := by cases f <;> rfl
  have hopening : ∀ c ∈ openingLineEnd cs, isAllowed c = true := by
    unfold openingLineEnd
    split
    · exact List.all_eq_true.1 rfl
    · simp
  cases hm : f.multiline with
  | false =>
      rw [Quoting.write_of_line hm]
      simp only [quotes, Bool.false_eq_true, if_false, List.forall_mem_cons, List.forall_mem_append]
      exact ⟨hquote, hallowed, hquote, by simp⟩
  | true =>
      rw [Quoting.write_of_lines hm]
      simp only [quotes, if_true, List.forall_mem_cons, List.forall_mem_append]
      exact ⟨hquote, ⟨hquote, hquote, by simp⟩, hopening, hallowed, hquote, hquote, hquote, by simp⟩

end LineShell.Toml
