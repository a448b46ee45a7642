import LineShell.Proofs.Extension
import LineShell.Proofs.Words

/-!
# A fresh word

Where nothing is typed yet, the cursor stands in a separator, at its end, or at the start of the
line.  A text put in there is a word of its own, unless a word follows directly: the end of a
separator is the start of the word behind it, and the text is read as the front of that word.

* `nextIsHead_separator`, `nextIsHead_space` — a word behind a separator of the line would be the
  first of a form, one behind blanks inside a form would not.
* `SeparatorAt`, `exists_separatorAt` — the separator at a position.
* `CutAt`, `exists_cutAt` — the lexemes left and right of the cursor.
* `AddsWord`, `GluesWord` — what may become of the words of a line.
* **`fresh_word_or_glued`** — which of them happens, for every line, position and text.
-/

namespace LineShell

/-! ## Separators -/

/-- Behind a separator of the line the next word is the first of a form. -/
lemma nextIsHead_separator {ps : List ChunkPart} {t : List Char}
    (h : (ps ++ [ChunkPart.separator t]).IsChain ChunkPart.EndsBefore) :
    nextIsHead true (ps.flatMap ChunkPart.lexemes ++ [.ofSeparator t]) = true := by
  induction ps using List.reverseRecOn generalizing t with
  | nil => rcases Lexeme.ofSeparator_cases t with ⟨c, -, -, ht⟩ | ht <;> rw [ht] <;> rfl
  | append_singleton ps p ih =>
      rw [List.append_assoc, List.singleton_append, List.isChain_append_cons_cons] at h
      obtain ⟨hps, hend, -⟩ := h
      rw [nextIsHead_append]
      rcases Lexeme.ofSeparator_cases t with ⟨c, -, -, ht⟩ | ht
      · rw [ht]
        rfl
      · rw [ht]
        show nextIsHead true _ = true
        cases p with
        | separator u => rw [List.flatMap_append, List.flatMap_singleton]; exact ih hps
        | form f =>
            -- a form is followed by a terminator, and this separator is blanks
            obtain ⟨c, hc, hsep⟩ := hend rfl
            obtain rfl := ChunkPart.separator.inj hsep
            rw [Lexeme.ofSeparator_terminator hc] at ht
            exact absurd ht (by simp)

lemma nextIsHead_segments (ps : List Primary) : nextIsHead false (ps.map .primary) = false := by
  induction ps with
  | nil => rfl
  | cons p ps ih => exact ih

/-- Nothing inside a form starts another one. -/
lemma nextIsHead_formParts (ps : List FormPart) :
    nextIsHead false (ps.flatMap FormPart.lexemes) = false := by
  induction ps with
  | nil => rfl
  | cons p ps ih =>
      rw [List.flatMap_cons, nextIsHead_append]
      cases p with
      | word w => rw [FormPart.lexemes, Compound.lexemes, nextIsHead_segments, ih]
      | space t => exact ih

/-- Behind blanks inside a form the next word is not its first. -/
lemma nextIsHead_space {f : Form} (h : f.WellFormed) {ps qs : List FormPart} {t : List Char}
    (hf : f.parts = ps ++ .space t :: qs) (head : Bool) :
    nextIsHead head (ps.flatMap FormPart.lexemes ++ [.space t]) = false := by
  have halt := h.alternates
  rw [hf] at halt
  match ps, halt with
  | [], halt => exact absurd halt.1 (by simp [FormPart.kind])
  | .space u :: ps, halt => exact absurd halt.1 (by simp [FormPart.kind])
  | .word w :: ps, _ =>
      have hw : w.primaries ≠ [] := h.words w (by rw [hf]; simp)
      obtain ⟨p, rest, hp⟩ := List.exists_cons_of_ne_nil hw
      rw [nextIsHead_append, List.flatMap_cons, FormPart.lexemes, Compound.lexemes, hp]
      exact nextIsHead_formParts (.word ⟨rest⟩ :: ps)

/-- A separator of a line, and the lexemes before and behind it.  The kind of context says whether
the next word would be the first of a form. -/
structure SeparatorAt (line : List Char) (k : ContextKind) (n : Node) (ls : List Lexeme)
    (l : Lexeme) (ms : List Lexeme) : Prop where
  lexemes : lex line = ls ++ l :: ms
  start : byteSize (ls.flatMap Lexeme.text) = n.start
  text : n.text = l.text
  separates : ∀ p, l ≠ .primary p
  head : nextIsHead true (ls ++ [l]) = decide (k = .newCommand)

lemma flatMap_text_lexemes_chunkParts (ps : List ChunkPart) :
    (ps.flatMap ChunkPart.lexemes).flatMap Lexeme.text = ps.flatMap Piece.text := by
  rw [List.flatMap_assoc]
  exact List.flatMap_congr fun p _ => p.flatMap_text_lexemes

lemma flatMap_text_lexemes_formParts (ps : List FormPart) :
    (ps.flatMap FormPart.lexemes).flatMap Lexeme.text = ps.flatMap Piece.text := by
  rw [List.flatMap_assoc]
  exact List.flatMap_congr fun p _ => p.flatMap_text_lexemes

/-- A separator among the statements of a line. -/
lemma exists_separatorAt_part {line t : List Char} {i j start : Nat}
    (h : (parse line).Holds (.part ⟨i, j, start, .separator t⟩)) :
    ∃ ls l ms, SeparatorAt line .newCommand (.part ⟨i, j, start, .separator t⟩) ls l ms := by
  obtain ⟨before, after, hchunk, hstart⟩ := h
  have hends := (parse_canonical line).ends
  rw [hchunk, ← List.singleton_append, ← List.append_assoc] at hends
  refine ⟨before.flatMap ChunkPart.lexemes, .ofSeparator t, after.flatMap ChunkPart.lexemes,
    ?_, ?_, ?_, Lexeme.ofSeparator_ne_primary t, ?_⟩
  · rw [← parse_lexemes line, Chunk.lexemes, hchunk, List.flatMap_append, List.flatMap_cons]
    rfl
  · rw [flatMap_text_lexemes_chunkParts]
    exact (hstart.trans (Nat.zero_add _)).symm
  · exact (Lexeme.text_ofSeparator t).symm
  · exact nextIsHead_separator (List.isChain_append.1 hends).1

/-- Blanks inside a form. -/
lemma exists_separatorAt_formPart {line t : List Char} {f : Placed Form} {i j start : Nat}
    (h : (parse line).Holds (.formPart f ⟨i, j, start, .space t⟩)) :
    ∃ ls l ms, SeparatorAt line .newArgument (.formPart f ⟨i, j, start, .space t⟩) ls l ms := by
  obtain ⟨⟨before, after, hchunk, hstart⟩, ps, qs, hform, hspace⟩ := h
  have hmem : ChunkPart.form f.item ∈ (parse line).parts := by
    rw [hchunk]
    simp [Placed.withItem]
  have hwell : f.item.WellFormed := (parse_canonical line).forms f.item hmem
  refine ⟨before.flatMap ChunkPart.lexemes ++ ps.flatMap FormPart.lexemes, .space t,
    qs.flatMap FormPart.lexemes ++ after.flatMap ChunkPart.lexemes, ?_, ?_, rfl, by simp, ?_⟩
  · rw [← parse_lexemes line, Chunk.lexemes, hchunk, List.flatMap_append, List.flatMap_cons]
    show _ ++ (f.item.parts.flatMap FormPart.lexemes ++ _) = _
    rw [hform, List.flatMap_append, List.flatMap_cons]
    simp [FormPart.lexemes]
  · rw [List.flatMap_append, flatMap_text_lexemes_chunkParts, flatMap_text_lexemes_formParts,
      byteSize_append]
    have hstart : f.start = 0 + byteSize (before.flatMap Piece.text) := hstart
    have hspace : start = f.start + byteSize (ps.flatMap Piece.text) := hspace
    show _ = start
    omega
  · rw [List.append_assoc, nextIsHead_append]
    exact nextIsHead_space hwell hform _

/-- In a segment part of a token is typed. -/
lemma isToken_of_contextKind?_primary {f : Placed Form} {w : Placed Compound} {p : Placed Primary}
    {k : ContextKind} (h : (Node.primary f w p).contextKind? = some k) : k.isToken = true := by
  obtain ⟨i, j, start, p⟩ := p
  cases p with
  | reference name =>
      obtain rfl := Option.some.inj h
      rfl
  | bareword t =>
      rw [Node.contextKind?] at h
      split at h
      · obtain rfl := Option.some.inj h
        split <;> rfl
      · exact absurd h (by simp)
  | singleQuoted body closed | doubleQuoted body closed =>
      exact absurd h (by simp [Node.contextKind?])

/-- A node where nothing is typed yet, and that has nothing inside it, is a separator. -/
lemma exists_separatorAt {line : List Char} {k : ContextKind} {n : Node}
    (hn : n ∈ (parse line).leaves) (hline : line ≠ []) (hkind : n.contextKind? = some k)
    (hk : k.isToken = false) : ∃ ls l ms, SeparatorAt line k n ls l ms := by
  have hholds := Chunk.holds_of_mem_nodes n (Chunk.mem_nodes_of_mem_leaves hn)
  -- a leaf has a lexeme, so it is no tree and no form without parts
  obtain ⟨l, hl, -⟩ := exists_lexeme_of_mem_leaves hline hn
  have hparts := Node.isLeaf_iff.1 (List.mem_filter.1 hn).2
  rcases n with d | ⟨i, j, start, f | t⟩ | ⟨f, i, j, start, w | t⟩ | ⟨f, w, i, j, start, p⟩
  · have hnil : d.parts = [] := arrange_eq_nil_iff.1 (List.map_eq_nil_iff.1 hparts)
    rw [Node.lexemes, Chunk.lexemes, hnil] at hl
    exact absurd hl (by simp)
  · have hnil : f.parts = [] := arrange_eq_nil_iff.1 (List.map_eq_nil_iff.1 hparts)
    rw [Node.lexemes, ChunkPart.lexemes, Form.lexemes, hnil] at hl
    exact absurd hl (by simp)
  · obtain rfl := Option.some.inj hkind
    exact exists_separatorAt_part hholds
  · exact absurd hkind (by simp [Node.contextKind?])
  · obtain rfl := Option.some.inj hkind
    exact exists_separatorAt_formPart hholds
  · exact absurd (hk.symm.trans (isToken_of_contextKind?_primary hkind)) (by simp)

/-! ## The cut at the cursor -/

/-- The lexemes left and right of a cursor where nothing is typed yet.  A separator that the cursor
stands in is cut in two. -/
structure CutAt (line : List Char) (pos : Nat) (k : ContextKind) (before after : List Lexeme) :
    Prop where
  text : line = before.flatMap Lexeme.text ++ after.flatMap Lexeme.text
  size : byteSize (before.flatMap Lexeme.text) = pos
  words : (parse line).words = lexWords true (before ++ after)
  /-- No segment stands right before the cursor. -/
  append : ∀ ms, lexWords true (before ++ ms)
    = lexWords true before ++ lexWords (nextIsHead true before) ms
  head : nextIsHead true before = decide (k = .newCommand)
  /-- Text put in at the cursor changes nothing before it. -/
  lex_before : ∀ c rest, isBareChar c = true →
    lex (before.flatMap Lexeme.text ++ c :: rest) = before ++ lex (c :: rest)
  lex_after : lex (after.flatMap Lexeme.text) = after

section separator

variable {line : List Char} {pos : Nat} {k : ContextKind} {n : Node} {ls ms : List Lexeme}
  {l : Lexeme}

/-- A separator, or what is left of one, is ended by bare text. -/
lemma SeparatorAt.lex_before (h : SeparatorAt line k n ls l ms) {l' : Lexeme} {d : Char}
    {ds ds' : List Char} (hl : l.text = d :: ds) (hl' : l'.text = d :: ds')
    {c : Char} {rest : List Char} (hmunched : l'.Munched (c :: rest)) :
    lex ((ls ++ [l']).flatMap Lexeme.text ++ c :: rest) = ls ++ [l'] ++ lex (c :: rest) := by
  rw [List.flatMap_append, List.flatMap_singleton, List.append_assoc, List.append_assoc,
    List.singleton_append]
  exact lex_replace h.lexemes hl hl' hmunched

/-- The cursor at the end of a separator. -/
lemma SeparatorAt.cutAt_stop (h : SeparatorAt line k n ls l ms) :
    CutAt line n.stop k (ls ++ [l]) ms where
  text := by
    rw [List.flatMap_append, List.append_assoc, List.flatMap_singleton, ← List.flatMap_cons,
      ← List.flatMap_append, ← h.lexemes, lex_flatMap_text]
  size := by
    rw [List.flatMap_append, byteSize_append, h.start, List.flatMap_singleton, ← h.text]
    rfl
  words := by
    rw [words_parse, h.lexemes, List.append_assoc, List.singleton_append]
  append := lexWords_append_separator h.separates true ls
  head := h.head
  lex_before c rest hc := by
    have hmunched := munched_of_lex_eq h.lexemes
    obtain ⟨d, ds, hd⟩ := List.exists_cons_of_ne_nil hmunched.text_ne_nil
    refine h.lex_before hd hd ?_
    match l, hmunched, h.separates with
    | .terminator d, hmunched, _ => exact hmunched
    | .space u, ⟨hne, hall, _⟩, _ => exact ⟨hne, hall, stops_cons_iff.2 (isBareChar_iff.1 hc).1⟩
    | .primary p, _, hp => exact absurd rfl (hp p)
  lex_after := lex_behind h.lexemes

/-- The cursor inside a separator, which is one of blanks. -/
lemma SeparatorAt.cutAt_inside {u v : List Char} (h : SeparatorAt line k n ls (.space (u ++ v)) ms)
    (hu : u ≠ []) (hv : v ≠ []) :
    CutAt line (n.start + byteSize u) k (ls ++ [.space u]) (.space v :: ms) where
  text := by
    rw [← lex_flatMap_text line, h.lexemes]
    simp [Lexeme.text]
  size := by
    rw [List.flatMap_append, byteSize_append, h.start, List.flatMap_singleton]
    rfl
  words := by
    rw [words_parse, h.lexemes, List.append_assoc, List.singleton_append,
      lexWords_append (by simp), lexWords_append (by simp)]
    rfl
  append := lexWords_append_separator (by simp) true ls
  head := by
    rw [← h.head, nextIsHead_append, nextIsHead_append]
    rfl
  lex_before c rest hc := by
    obtain ⟨d, ds, rfl⟩ := List.exists_cons_of_ne_nil hu
    obtain ⟨-, hall, -⟩ := munched_of_lex_eq h.lexemes
    refine h.lex_before rfl rfl ⟨hu, fun x hx => hall x (List.mem_append_left _ hx), ?_⟩
    exact stops_cons_iff.2 (isBareChar_iff.1 hc).1
  lex_after := by
    obtain ⟨-, hall, hstop⟩ := munched_of_lex_eq h.lexemes
    have hrow : Lexeme.Row [.space v] (ms.flatMap Lexeme.text) :=
      ⟨⟨hv, fun x hx => hall x (List.mem_append_right _ hx), hstop⟩, trivial⟩
    have hlex := lex_append hrow
    rw [lex_behind h.lexemes, ← List.flatMap_append] at hlex
    exact hlex

/-- A separator at the start of a line is not inside a form. -/
lemma SeparatorAt.newCommand_of_start (h : SeparatorAt line k n ls l ms) (hstart : n.start = 0) :
    k = .newCommand := by
  have hnil : ls.flatMap Lexeme.text = [] := byteSize_eq_zero_iff.1 (h.start.trans hstart)
  obtain rfl : ls = [] := by
    have hrow := row_lex line
    rw [h.lexemes] at hrow
    refine List.eq_nil_iff_forall_not_mem.2 fun x hx => ?_
    obtain ⟨rest, hmunched⟩ := Lexeme.munched_of_mem_row hrow (List.mem_append_left _ hx)
    exact hmunched.text_ne_nil (List.flatMap_eq_nil_iff.1 hnil x hx)
  have hhead := h.head
  match l, h.separates with
  | .terminator c, _ | .space u, _ => simpa [nextIsHead, eq_comm] using hhead
  | .primary p, hp => exact absurd rfl (hp p)

lemma utf8Size_of_isSpace {c : Char} (h : isSpace c = true) : c.utf8Size = 1 := by
  rcases isSpace_iff.1 h with rfl | rfl | rfl <;> decide

lemma utf8Size_of_isTerminator {c : Char} (h : isTerminator c = true) : c.utf8Size = 1 := by
  rcases isTerminator_iff.1 h with rfl | rfl <;> decide

/-- A text of characters of one byte can be cut at every byte. -/
lemma exists_cut_of_utf8Size {cs : List Char} (h : ∀ c ∈ cs, c.utf8Size = 1) {m : Nat}
    (hm : m ≤ byteSize cs) : ∃ u v, cs = u ++ v ∧ byteSize u = m := by
  induction cs generalizing m with
  | nil => exact ⟨[], [], rfl, (Nat.le_zero.1 hm).symm⟩
  | cons c cs ih =>
      cases m with
      | zero => exact ⟨[], c :: cs, rfl, rfl⟩
      | succ m =>
          have hc := h c List.mem_cons_self
          rw [byteSize_cons, hc] at hm
          obtain ⟨u, v, rfl, hu⟩ := ih (fun x hx => h x (List.mem_cons_of_mem _ hx))
            (Nat.le_of_add_le_add_left (by omega : 1 + m ≤ 1 + byteSize cs))
          refine ⟨c :: u, v, rfl, ?_⟩
          rw [byteSize_cons, hc, hu, Nat.add_comm]

/-- The cursor between the ends of a separator. -/
lemma SeparatorAt.exists_cutAt_inside (h : SeparatorAt line k n ls l ms) (hstart : n.start < pos)
    (hstop : pos < n.stop) : ∃ before after, CutAt line pos k before after := by
  have hmunched := munched_of_lex_eq h.lexemes
  rw [Node.stop, h.text] at hstop
  cases l with
  | terminator c =>
      have hc : byteSize (Lexeme.terminator c).text = 1 := by
        rw [Lexeme.text, byteSize_cons, byteSize_nil, utf8Size_of_isTerminator hmunched]
      omega
  | primary p => exact absurd rfl (h.separates p)
  | space t =>
      obtain ⟨-, hall, -⟩ := hmunched
      have hstop : pos < n.start + byteSize t := hstop
      obtain ⟨u, v, rfl, hu⟩ : ∃ u v, t = u ++ v ∧ byteSize u = pos - n.start :=
        exists_cut_of_utf8Size (fun c hc => utf8Size_of_isSpace (hall c hc)) (by omega)
      rw [byteSize_append] at hstop
      have hune : u ≠ [] := by
        rintro rfl
        rw [byteSize_nil] at hu
        omega
      have hvne : v ≠ [] := by
        rintro rfl
        rw [byteSize_nil] at hstop
        omega
      have hcut := h.cutAt_inside hune hvne
      rw [hu, Nat.add_sub_cancel' (Nat.le_of_lt hstart)] at hcut
      exact ⟨_, _, hcut⟩

end separator

/-- The cursor at the start of the line. -/
lemma cutAt_zero (line : List Char) : CutAt line 0 .newCommand [] (lex line) where
  text := (lex_flatMap_text line).symm
  size := rfl
  words := words_parse line
  append _ := rfl
  head := rfl
  lex_before _ _ _ := rfl
  lex_after := by rw [lex_flatMap_text]

lemma exists_cutAt {line : List Char} {pos : Nat} {k : ContextKind} {ctx : Context}
    (hk : k.isToken = false) (hpos : pos ≤ byteSize line)
    (hctx : k.classify ((parse line).leafAt pos) = some ctx) :
    ∃ before after, CutAt line pos k before after := by
  have hkind := isSome_classify_iff.1 (Option.isSome_of_eq_some hctx)
  by_cases hline : line = []
  · subst hline
    obtain rfl : pos = 0 := Nat.le_zero.1 hpos
    rw [leafAt_eq_root (.inl rfl)] at hkind
    obtain rfl := Option.some.inj hkind
    exact ⟨_, _, cutAt_zero []⟩
  · obtain ⟨hleaf, hstart, hstop, hbefore⟩ := leafAt_start hpos
    obtain ⟨ls, l, ms, h⟩ := exists_separatorAt hleaf hline hkind hk
    rcases Nat.lt_or_eq_of_le hstart with hlt | heq
    · rcases Nat.lt_or_eq_of_le hstop with hlt' | hend
      · exact h.exists_cutAt_inside hlt hlt'
      · have hcut := h.cutAt_stop
        rw [← hend] at hcut
        exact ⟨_, _, hcut⟩
    · -- only at the start of the line does the cursor find a leaf that does not begin before it
      have hzero : ((parse line).leafAt pos).start = 0 := by omega
      obtain rfl := h.newCommand_of_start hzero
      obtain rfl : pos = 0 := heq.symm.trans hzero
      exact ⟨_, _, cutAt_zero line⟩

/-! ## The word put in -/

/-- A line has the words of another one and one word more. -/
def AddsWord (line line' : List Char) (w : LineWord) : Prop :=
  ∃ xs ys, (parse line').words = xs ++ w :: ys ∧
    (parse line).words.map LineWord.text = (xs ++ ys).map LineWord.text

/-- A line has the words of another one, with a text before one of them. -/
def GluesWord (line line' t : List Char) : Prop :=
  ∃ xs w ys, (parse line).words = xs ++ w :: ys ∧ (parse line').words = xs ++ w.behind t :: ys

/-- A row of lexemes begins with a segment where its text goes on with a word. -/
lemma stops_isWordChar_iff {ls : List Lexeme} (h : Lexeme.Row ls []) :
    Stops isWordChar (ls.flatMap Lexeme.text) ↔ ¬ BeginsWithSegment ls := by
  match ls, h with
  | [], _ => simp
  | .terminator c :: ls, ⟨hc, _⟩ =>
      have hc : isWordChar c = false := isWordChar_of_isTerminator hc
      simp [Lexeme.text, hc]
  | .space t :: ls, ⟨⟨hne, hall, _⟩, _⟩ =>
      have hstops : Stops isWordChar (t ++ ls.flatMap Lexeme.text) :=
        stops_append hne fun c hc => isWordChar_of_isSpace (hall c hc)
      simpa [Lexeme.text] using hstops
  | .primary p :: ls, ⟨hp, _⟩ =>
      obtain ⟨c, cs, hc, hspace, hterminator⟩ := Primary.Munched.exists_text_eq_cons hp
      simp [Lexeme.text, hc, isWordChar, hspace, hterminator, BeginsWithSegment]

/-- A segment that is not bare text begins with a sign of its own. -/
lemma Primary.bareword_or_stops (p : Primary) :
    (∃ v, p = .bareword v) ∨ ∀ rest, Stops isBareChar (p.text ++ rest) := by
  cases p with
  | bareword v => exact .inl ⟨v, rfl⟩
  | singleQuoted body closed =>
      exact .inr fun rest => stops_cons_iff.2 (by decide : isBareChar '\'' = false)
  | doubleQuoted body closed =>
      exact .inr fun rest => stops_cons_iff.2 (by decide : isBareChar '"' = false)
  | reference name => exact .inr fun rest => stops_cons_iff.2 (by decide : isBareChar '$' = false)

section bare

variable {t : List Char}

/-- Bare text before something else is a segment. -/
lemma lex_bare (hne : t ≠ []) (ht : ∀ c ∈ t, isBareChar c = true) {rest : List Char}
    (hrest : Stops isBareChar rest) : lex (t ++ rest) = .primary (.bareword t) :: lex rest := by
  have hrow : Lexeme.Row [.primary (.bareword t)] rest := ⟨⟨hne, ht, hrest⟩, trivial⟩
  have hlex := lex_append hrow
  rwa [List.flatMap_singleton] at hlex

/-- Bare text before a segment is read as the front of the word. -/
lemma lexWords_bare_primary (hne : t ≠ []) (ht : ∀ c ∈ t, isBareChar c = true) {p : Primary}
    {ms : List Lexeme} (h : lex ((Lexeme.primary p :: ms).flatMap Lexeme.text) = .primary p :: ms)
    (head : Bool) :
    lexWords head (lex (t ++ (Lexeme.primary p :: ms).flatMap Lexeme.text))
      = (lexWords head (.primary p :: ms)).modifyHead (LineWord.behind t) := by
  rcases p.bareword_or_stops with ⟨v, rfl⟩ | hstops
  · obtain ⟨-, hv, hstop⟩ : (Primary.bareword v).Munched (ms.flatMap Lexeme.text) :=
      @munched_of_lex_eq _ [] ms _ h
    have hall : ∀ c ∈ t ++ v, isBareChar c = true := fun c hc =>
      (List.mem_append.1 hc).elim (ht c) (hv c)
    have hlex := lex_bare (List.append_ne_nil_of_left_ne_nil hne v) hall hstop
    rw [@lex_behind _ [] _ _ h, List.append_assoc] at hlex
    rw [List.flatMap_cons]
    show lexWords head (lex (t ++ (v ++ _))) = _
    rw [hlex]
    exact lexWords_primary_behind rfl head ms
  · have hstop : Stops isBareChar ((Lexeme.primary p :: ms).flatMap Lexeme.text) := hstops _
    rw [lex_bare hne ht hstop, h]
    exact lexWords_primary_primary head _ _ ms

end bare

/-- A text put in at the cursor is a word of its own, or the front of the word that follows. -/
lemma CutAt.adds_or_glues {line : List Char} {pos : Nat} {k : ContextKind}
    {before after : List Lexeme} (h : CutAt line pos k before after) {t : List Char}
    (hne : t ≠ []) (ht : ∀ c ∈ t, isBareChar c = true) {line' : List Char}
    (hline' : line' = before.flatMap Lexeme.text ++ t ++ after.flatMap Lexeme.text) :
    (Stops isWordChar (after.flatMap Lexeme.text) →
      AddsWord line line' ⟨decide (k = .newCommand), t⟩) ∧
    (¬ Stops isWordChar (after.flatMap Lexeme.text) → GluesWord line line' t) := by
  have hrow : Lexeme.Row after [] := by
    have hrow := row_lex (after.flatMap Lexeme.text)
    rwa [h.lex_after] at hrow
  have hwords : (parse line').words
      = lexWords true before
        ++ lexWords (nextIsHead true before) (lex (t ++ after.flatMap Lexeme.text)) := by
    obtain ⟨c, cs, rfl⟩ := List.exists_cons_of_ne_nil hne
    rw [words_parse, hline', List.append_assoc, List.cons_append,
      h.lex_before c _ (ht c List.mem_cons_self), h.append]
  have hold := h.words
  rw [h.append] at hold
  rw [stops_isWordChar_iff hrow]
  constructor
  · intro hbegins
    have hstops := ((stops_isWordChar_iff hrow).2 hbegins).of_isWordChar
      fun _ => isWordChar_of_isBareChar
    rw [lex_bare hne ht hstops, h.lex_after, lexWords_primary hbegins, h.head] at hwords
    refine ⟨_, _, hwords, ?_⟩
    rw [hold, List.map_append, List.map_append, map_text_lexWords _ false after]
  · intro hbegins
    match after, not_not.1 hbegins with
    | .primary p :: ms, _ =>
        obtain ⟨w, ws, hw⟩ := exists_lexWords_primary (nextIsHead true before) p ms
        rw [lexWords_bare_primary hne ht h.lex_after, hw] at hwords
        rw [hw] at hold
        exact ⟨_, w, ws, hold, hwords⟩

/-- **A fresh word is fresh unless a word follows directly.**  The text put in where nothing is
typed yet is one more word, and the first of a form exactly if a command was to be started; the
other words keep their texts.  Directly before a word it becomes the front of that word. -/
theorem fresh_word_or_glued {line : List Char} {pos : Nat} {k : ContextKind} {ctx : Context}
    {t : List Char} (hk : k.isToken = false) (hpos : pos ≤ byteSize line)
    (hctx : k.classify ((parse line).leafAt pos) = some ctx) (hne : t ≠ [])
    (ht : ∀ c ∈ t, isBareChar c = true) :
    ∃ a b line', splitAtByte? line pos = some (a, b) ∧
      insertAtByte? line (ctx.insertAt pos) t = some line' ∧
      (Stops isWordChar b → AddsWord line line' ⟨decide (k = .newCommand), t⟩) ∧
      (¬ Stops isWordChar b → GluesWord line line' t) := by
  obtain ⟨before, after, h⟩ := exists_cutAt hk hpos hctx
  have hat : ctx.insertAt pos = pos := by
    obtain rfl := kind_of_classify hctx
    rw [Context.insertAt]
    cases hkind : ctx.kind with
    | newCommand | newArgument => rfl
    | reference | commandHead | argument => exact absurd hk (by simp [hkind, ContextKind.isToken])
  have hsplit := splitAtByte?_append (before.flatMap Lexeme.text) (after.flatMap Lexeme.text)
  rw [← h.text, h.size] at hsplit
  refine ⟨_, _, _, hsplit, ?_, h.adds_or_glues hne ht rfl⟩
  rw [hat, insertAtByte?, hsplit]
  rfl

/-- In the middle of a run of blanks. -/
theorem fresh_word_between_blanks :
    ∃ line', insertAtByte? "a  b".toList 2 ['x'] = some line' ∧
      AddsWord "a  b".toList line' ⟨false, ['x']⟩ := by
  have hlex : lex "a  b".toList
      = [.primary (.bareword ['a']), .space [' ', ' '], .primary (.bareword ['b'])] := by
    simp [lex_cons, Lexeme.scan, Primary.scan, isTerminator, isSpace, isBareChar]
  have hctx : ContextKind.newArgument.classify ((parse "a  b".toList).leafAt 2)
      = some ⟨.newArgument, 4, "", 3⟩ := by
    rw [parse, hlex]
    decide
  obtain ⟨a, b, line', hsplit, hinsert, hadds, -⟩ :=
    fresh_word_or_glued (t := ['x']) rfl (by decide) hctx (by simp)
      (List.all_eq_true.1 (by decide))
  obtain ⟨rfl, rfl⟩ : ['a', ' '] = a ∧ [' ', 'b'] = b :=
    Prod.mk.inj (Option.some.inj ((by decide : splitAtByte? "a  b".toList 2 = _).symm.trans hsplit))
  exact ⟨line', hinsert, hadds (stops_cons_iff.2 (by decide))⟩

/-- Directly before a word no word is added: the text becomes part of the one that is there. -/
theorem word_put_before_word_is_glued :
    ContextKind.newArgument.classify ((parse "set v b".toList).leafAt 6)
        = some ⟨.newArgument, 7, "", 6⟩ ∧
      insertAtByte? "set v b".toList 6 ['x'] = some "set v xb".toList ∧
      (parse "set v b".toList).words = [⟨true, "set".toList⟩, ⟨false, ['v']⟩, ⟨false, ['b']⟩] ∧
      (parse "set v xb".toList).words
        = [⟨true, "set".toList⟩, ⟨false, ['v']⟩, ⟨false, ['x', 'b']⟩] := by
  have hlex : lex "set v b".toList
      = [.primary (.bareword "set".toList), .space [' '], .primary (.bareword ['v']), .space [' '],
        .primary (.bareword ['b'])] := by
    simp [lex_cons, Lexeme.scan, Primary.scan, isTerminator, isSpace, isBareChar]
  have hlex' : lex "set v xb".toList
      = [.primary (.bareword "set".toList), .space [' '], .primary (.bareword ['v']), .space [' '],
        .primary (.bareword ['x', 'b'])] := by
    simp [lex_cons, Lexeme.scan, Primary.scan, isTerminator, isSpace, isBareChar]
  rw [parse, parse, hlex, hlex']
  decide

end LineShell
