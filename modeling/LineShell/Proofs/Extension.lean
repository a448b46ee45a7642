import LineShell.Proofs.Insertion
import LineShell.Proofs.Unambiguous

/-!
# A token is extended in place

A token is bare text or a reference.  Both end where their class of characters ends, so a text of
that class put in at the end only makes the token longer.  No lexeme is added or lost, the line
keeps its shape, and the token is found again with the longer text as its head.

* `ContextKind.isTokenChar`, `ContextKind.segment` — the class of a token, and the token as it
  stands on the line.
* `exists_segment_of_classify`, `classify_of_text` — what the classifiers of tokens recognise.
* `TokenAt` — a token among the lexemes of its line; `TokenAt.lex_longer` says how the line is read
  when the token is longer, `TokenAt.exists_node` that the token is found again.
* `ExtendedInPlace` — what stays and what moves.
* **`token_extended_in_place`** — for every line, position and text of the class of the token.
-/

namespace LineShell

namespace ContextKind

/-- The kinds of context in which part of a token is typed. -/
def isToken : ContextKind → Bool
  | reference | commandHead | argument => true
  | newCommand | newArgument => false

/-- The characters that a token of a kind is made of. -/
def isTokenChar : ContextKind → Char → Bool
  | reference => isVariableChar
  | newCommand | commandHead | newArgument | argument => isBareChar

/-- A token as a segment of its word. -/
def segment : ContextKind → List Char → Primary
  | reference, t => .reference t
  | newCommand, t | commandHead, t | newArgument, t | argument, t => .bareword t

@[simp] lemma value_segment (k : ContextKind) (t : List Char) : (k.segment t).value = t := by
  cases k <;> rfl

lemma text_segment_append (k : ContextKind) (head t : List Char) :
    (k.segment (head ++ t)).text = (k.segment head).text ++ t := by
  cases k <;> rfl

lemma text_segment_inj (k : ContextKind) {head t : List Char}
    (h : (k.segment head).text = (k.segment t).text) : head = t := by
  cases k with
  | reference => exact (List.cons.inj h).2
  | newCommand | commandHead | newArgument | argument => exact h

lemma kind_segment (k : ContextKind) (head t : List Char) :
    (k.segment t).kind = (k.segment head).kind := by
  cases k <;> rfl

/-- A token with more of its class behind it ends where the class does. -/
lemma munched_segment_append {k : ContextKind} {head t rest rest' : List Char}
    (h : (k.segment head).Munched rest) (ht : ∀ c ∈ t, k.isTokenChar c = true)
    (hrest : Stops k.isTokenChar rest') : (k.segment (head ++ t)).Munched rest' := by
  have hall {p : Char → Bool} (hhead : ∀ c ∈ head, p c = true) (ht : ∀ c ∈ t, p c = true) :
      ∀ c ∈ head ++ t, p c = true := fun c hc => (List.mem_append.1 hc).elim (hhead c) (ht c)
  cases k with
  | reference => exact ⟨hall h.1 ht, hrest⟩
  | newCommand | commandHead | newArgument | argument =>
      exact ⟨List.append_ne_nil_of_left_ne_nil h.1 t, hall h.2.1 ht, hrest⟩

lemma stops_of_munched {k : ContextKind} {head rest : List Char}
    (h : (k.segment head).Munched rest) : Stops k.isTokenChar rest := by
  cases k with
  | reference => exact h.2
  | newCommand | commandHead | newArgument | argument => exact h.2.2

end ContextKind

/-! ## The token at a node -/

/-- A node with part of a token is the segment that the token is. -/
lemma exists_segment_of_classify {k : ContextKind} {n : Node} {ctx : Context}
    (hk : k.isToken = true) (h : k.classify n = some ctx) :
    ∃ f w p head, n = .primary f w p ∧ p.item = k.segment head ∧ ctx = .ofNode k n head := by
  have hkind := isSome_classify_iff.1 (Option.isSome_of_eq_some h)
  match n, hkind with
  | .chunk _, hkind | .part _, hkind | .formPart _ ⟨_, _, _, .space _⟩, hkind =>
      obtain rfl := Option.some.inj hkind
      exact absurd hk (by simp [ContextKind.isToken])
  | .primary f w ⟨i, j, start, .reference name⟩, hkind =>
      obtain rfl := Option.some.inj hkind
      obtain rfl := Option.some.inj h
      exact ⟨f, w, _, name, rfl, rfl, rfl⟩
  | .primary f w ⟨i, j, start, .bareword t⟩, hkind =>
      by_cases hone : w.item.primaries.length = 1
      · by_cases hindex : w.index = 0
        · obtain rfl : ContextKind.commandHead = k := by
            simpa [Node.contextKind?, hone, hindex] using hkind
          obtain rfl : Context.ofNode .commandHead _ t = ctx := by
            simpa [ContextKind.classify, Context.commandHead, Node.simpleCompound, hone, hindex]
              using h
          exact ⟨f, w, _, t, rfl, rfl, rfl⟩
        · obtain rfl : ContextKind.argument = k := by
            simpa [Node.contextKind?, hone, hindex] using hkind
          obtain rfl : Context.ofNode .argument _ t = ctx := by
            simpa [ContextKind.classify, Context.argument, Node.simpleCompound, hone, hindex]
              using h
          exact ⟨f, w, _, t, rfl, rfl, rfl⟩
      · exact absurd hkind (by simp [Node.contextKind?, hone])

/-- A node of the kind of a token is recognised with the token as its head. -/
lemma classify_of_text {k : ContextKind} {n : Node} {head : List Char} (hk : k.isToken = true)
    (hkind : n.contextKind? = some k) (htext : n.text = (k.segment head).text) :
    k.classify n = some (.ofNode k n head) := by
  obtain ⟨ctx, hctx⟩ := Option.isSome_iff_exists.1 (isSome_classify_iff.2 hkind)
  obtain ⟨f, w, p, head', rfl, hp, rfl⟩ := exists_segment_of_classify hk hctx
  have htext : p.item.text = (k.segment head).text := htext
  rw [hp] at htext
  rw [hctx, k.text_segment_inj htext]

lemma kind_of_classify {k : ContextKind} {n : Node} {ctx : Context}
    (h : k.classify n = some ctx) : ctx.kind = k := by
  cases k with
  | reference | commandHead | argument =>
      obtain ⟨_, _, _, head, -, -, rfl⟩ := exists_segment_of_classify rfl h
      rfl
  | newCommand =>
      match n, h with
      | .chunk _, h | .part _, h =>
          obtain rfl := Option.some.inj h
          rfl
  | newArgument =>
      match n, h with
      | .formPart _ ⟨_, _, _, .space _⟩, h =>
          obtain rfl := Option.some.inj h
          rfl

lemma insertAt_of_classify {k : ContextKind} {n : Node} {ctx : Context} (hk : k.isToken = true)
    (h : k.classify n = some ctx) (pos : Nat) : ctx.insertAt pos = ctx.stop := by
  obtain rfl := kind_of_classify h
  rw [Context.insertAt]
  cases hkind : ctx.kind with
  | reference | commandHead | argument => rfl
  | newCommand | newArgument => exact absurd hk (by simp [hkind, ContextKind.isToken])

/-- A node that is a token, and the lexemes that stand before and behind it on the line. -/
structure TokenAt (line : List Char) (k : ContextKind) (n : Node) (head : List Char)
    (ls ms : List Lexeme) : Prop where
  mem : n ∈ (parse line).nodes
  kind : n.contextKind? = some k
  children : n.children = []
  text : n.text = (k.segment head).text
  lexemes : lex line = ls ++ .primary (k.segment head) :: ms
  start : byteSize (ls.flatMap Lexeme.text) = n.start

lemma exists_tokenAt {line : List Char} {k : ContextKind} {n : Node} {ctx : Context}
    (hk : k.isToken = true) (hn : n ∈ (parse line).nodes) (h : k.classify n = some ctx) :
    ∃ head ls ms, ctx = .ofNode k n head ∧ TokenAt line k n head ls ms := by
  have hkind := isSome_classify_iff.1 (Option.isSome_of_eq_some h)
  obtain ⟨f, w, p, head, rfl, hp, rfl⟩ := exists_segment_of_classify hk h
  have hlexemes : (Node.primary f w p).lexemes = [.primary (k.segment head)] := by
    rw [Node.lexemes, hp]
  obtain ⟨ls, ms, hlex, hstart, htext⟩ := exists_lex_eq hn hlexemes
  exact ⟨head, ls, ms, rfl, hn, hkind, rfl, htext, hlex, hstart⟩

/-! ## The longer line -/

namespace TokenAt

variable {line : List Char} {k : ContextKind} {n : Node} {head : List Char} {ls ms : List Lexeme}

lemma munched (h : TokenAt line k n head ls ms) :
    (Lexeme.primary (k.segment head)).Munched (ms.flatMap Lexeme.text) :=
  munched_of_lex_eq h.lexemes

lemma stops (h : TokenAt line k n head ls ms) :
    Stops k.isTokenChar (ms.flatMap Lexeme.text) :=
  ContextKind.stops_of_munched h.munched

lemma stop_eq (h : TokenAt line k n head ls ms) :
    n.stop = byteSize (ls.flatMap Lexeme.text) + byteSize (k.segment head).text := by
  rw [Node.stop, h.text, h.start]

lemma start_lt_stop (h : TokenAt line k n head ls ms) :
    byteSize (ls.flatMap Lexeme.text) < n.stop := by
  have hpos := byteSize_pos h.munched.text_ne_nil
  rw [h.stop_eq]
  exact Nat.lt_add_of_pos_right hpos

/-- The line with a text put in at the end of the token. -/
lemma insertAtByte?_stop (h : TokenAt line k n head ls ms) (t : List Char) :
    insertAtByte? line n.stop t
      = some (ls.flatMap Lexeme.text
          ++ ((k.segment head).text ++ (t ++ ms.flatMap Lexeme.text))) := by
  have hline : line
      = ls.flatMap Lexeme.text ++ (k.segment head).text ++ ms.flatMap Lexeme.text := by
    rw [← lex_flatMap_text line, h.lexemes, List.flatMap_append, List.flatMap_cons,
      List.append_assoc]
    rfl
  have hinsert := insertAtByte?_append (ls.flatMap Lexeme.text ++ (k.segment head).text)
    (ms.flatMap Lexeme.text) t
  rw [← hline, byteSize_append, ← h.stop_eq] at hinsert
  rw [hinsert, List.append_assoc, List.append_assoc]

/-- The lexemes of a line in which the token goes on with more of its class. -/
lemma lex_longer (h : TokenAt line k n head ls ms) {t rest : List Char}
    (ht : ∀ c ∈ t, k.isTokenChar c = true) (hrest : Stops k.isTokenChar rest) :
    lex (ls.flatMap Lexeme.text ++ ((k.segment head).text ++ (t ++ rest)))
      = ls ++ .primary (k.segment (head ++ t)) :: lex rest := by
  obtain ⟨c, cs, hc, -, -⟩ := Primary.Munched.exists_text_eq_cons h.munched
  have hc' : (k.segment (head ++ t)).text = c :: (cs ++ t) := by
    rw [k.text_segment_append, hc, List.cons_append]
  have hlex := @lex_replace line rest ls ms _ (.primary (k.segment (head ++ t))) h.lexemes
    c cs (cs ++ t) hc hc' (ContextKind.munched_segment_append h.munched ht hrest)
  rw [← hlex, Lexeme.text, k.text_segment_append, List.append_assoc]

section longer

variable {line' t : List Char}

/-- The nodes of the line and of one in which the token is longer. -/
lemma forall₂_nodes (h : TokenAt line k n head ls ms)
    (h' : lex line' = ls ++ .primary (k.segment (head ++ t)) :: ms) :
    List.Forall₂ (Node.Carried (shiftFrom n.stop (byteSize t)))
      (parse line).nodes (parse line').nodes := by
  refine forall₂_nodes_parse (shiftFrom_of_lt (Nat.zero_lt_of_lt h.start_lt_stop) _) ?_
  rw [h.lexemes, h', h.stop_eq]
  exact siblings_replace (k.kind_segment head _) (k.text_segment_append head t)
    h.munched.text_ne_nil

/-- The token is found again, in the same place and with more text. -/
lemma exists_node (h : TokenAt line k n head ls ms) (hk : k.isToken = true)
    (h' : lex line' = ls ++ .primary (k.segment (head ++ t)) :: ms) :
    ∃ m ∈ (parse line').leaves, m.id = n.id ∧ m.start = n.start ∧
      m.stop = n.stop + byteSize t ∧ k.classify m = some (.ofNode k m (head ++ t)) := by
  have hlt := h.start_lt_stop
  have hstart := h.start
  obtain ⟨m, hm, hnm⟩ := exists_of_forall₂ (h.forall₂_nodes h').flip h.mem
  have hmstart : m.start = n.start := hnm.start.trans (shiftFrom_of_lt (by omega) _)
  have hmstop : m.stop = n.stop + byteSize t := hnm.stop.trans (shiftFrom_of_le (Nat.le_refl _) _)
  have hmleaf : m ∈ (parse line').leaves := by
    refine List.mem_filter.2 ⟨hm, ?_⟩
    rw [Node.isLeaf, hnm.children, h.children, List.isEmpty_nil]
  -- `m` is known by its place only; the lexeme that covers the place tells its text
  have hfound : (parse line').leafAt n.stop = m :=
    leafAt_eq_of_mem_leaves hmleaf (by omega) (by omega)
  have hle : n.stop
      ≤ byteSize (ls.flatMap Lexeme.text) + byteSize (k.segment (head ++ t)).text := by
    rw [k.text_segment_append, byteSize_append, h.stop_eq]
    omega
  have hlexemes := (leafAt_of_lex h' hlt hle).1
  rw [hfound] at hlexemes
  have hmtext : m.text = (k.segment (head ++ t)).text := by
    rw [← Node.flatMap_text_lexemes, hlexemes, List.flatMap_singleton]
    rfl
  exact ⟨m, hmleaf, hnm.id, hmstart, hmstop,
    classify_of_text hk (hnm.contextKind.trans h.kind) hmtext⟩

end longer

end TokenAt

/-- A token that is extended in place: `line'` is the line with the text put in. -/
structure ExtendedInPlace (line : List Char) (pos : Nat) (k : ContextKind) (ctx : Context)
    (t line' : List Char) : Prop where
  inserted : insertAtByte? line (ctx.insertAt pos) t = some line'
  /-- There are as many nodes, numbered alike. -/
  ids : (parse line').nodes.map Node.id = (parse line).nodes.map Node.id
  /-- Kinds and links stay, and spans only move. -/
  cells : (parse line').cells
    = (parse line).cells.map (Cell.move (shiftFrom ctx.stop (byteSize t)))
  /-- The end of the longer token finds the node that the position found. -/
  node : ((parse line').leafAt (ctx.stop + byteSize t)).id = ((parse line).leafAt pos).id
  /-- The node is recognised as it was, with the text behind its head. -/
  context : k.classify ((parse line').leafAt (ctx.stop + byteSize t))
    = some ⟨k, ctx.node, ctx.head ++ String.ofList t, ctx.stop + byteSize t⟩

lemma exists_extendedInPlace {line : List Char} {pos : Nat} {k : ContextKind} {ctx : Context}
    {t : List Char} (hk : k.isToken = true) (hctx : k.classify ((parse line).leafAt pos) = some ctx)
    (ht : ∀ c ∈ t, k.isTokenChar c = true) : ∃ line', ExtendedInPlace line pos k ctx t line' := by
  have hat := insertAt_of_classify hk hctx pos
  obtain ⟨head, ls, ms, rfl, h⟩ := exists_tokenAt hk (leafAt_mem_nodes line pos) hctx
  generalize hn : (parse line).leafAt pos = n at h hat
  have hlex := h.lex_longer ht h.stops
  rw [lex_behind h.lexemes] at hlex
  have hinsert := h.insertAtByte?_stop t
  generalize ls.flatMap Lexeme.text ++ ((k.segment head).text ++ (t ++ ms.flatMap Lexeme.text))
    = line' at hlex hinsert
  obtain ⟨m, hm, hid, hstart, hstop, hclassify⟩ := h.exists_node hk hlex
  have hlt := h.start_lt_stop
  have hbegin := h.start
  have hfound : (parse line').leafAt (n.stop + byteSize t) = m :=
    leafAt_eq_of_mem_leaves hm (by omega) (by omega)
  have hcarried := h.forall₂_nodes hlex
  refine ⟨line', ?_, Node.Carried.map_id_eq hcarried, ?_, ?_, ?_⟩
  · rw [hat]
    exact hinsert
  · exact Node.Carried.map_cell_eq hcarried
  · rw [hn]
    exact (congrArg Node.id hfound).trans hid
  · show k.classify ((parse line').leafAt (n.stop + byteSize t))
      = some ⟨k, n.id, String.ofList head ++ String.ofList t, n.stop + byteSize t⟩
    rw [hfound, hclassify, Context.ofNode, hid, hstop, String.ofList_append]

/-- **A token is extended in place**, whatever stands around it and wherever the cursor is in it. -/
theorem token_extended_in_place {line : List Char} {pos : Nat} {k : ContextKind} {ctx : Context}
    {t : List Char} (hk : k.isToken = true) (hctx : k.classify ((parse line).leafAt pos) = some ctx)
    (ht : ∀ c ∈ t, k.isTokenChar c = true) :
    ctx.insertAt pos = ctx.stop ∧ ∃ line', ExtendedInPlace line pos k ctx t line' :=
  ⟨insertAt_of_classify hk hctx pos, exists_extendedInPlace hk hctx ht⟩

/-- An argument before a terminator, with the cursor inside it. -/
theorem token_extended_before_terminator :
    ContextKind.argument.classify ((parse "cat ab;ls".toList).leafAt 5)
        = some ⟨.argument, 6, "ab", 6⟩ ∧
      ∃ line', ExtendedInPlace "cat ab;ls".toList 5 .argument ⟨.argument, 6, "ab", 6⟩ ['/', 'c']
        line' := by
  have hlex : lex "cat ab;ls".toList
      = [.primary (.bareword "cat".toList), .space [' '], .primary (.bareword "ab".toList),
        .terminator ';', .primary (.bareword "ls".toList)] := by
    simp [lex_cons, Lexeme.scan, Primary.scan, isTerminator, isSpace, isBareChar]
  have hctx : ContextKind.argument.classify ((parse "cat ab;ls".toList).leafAt 5)
      = some ⟨.argument, 6, "ab", 6⟩ := by
    rw [parse, hlex]
    decide
  exact ⟨hctx, (token_extended_in_place rfl hctx (List.all_eq_true.1 (by decide))).2⟩

end LineShell
