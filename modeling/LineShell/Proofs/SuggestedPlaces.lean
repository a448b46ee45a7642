import LineShell.Proofs.Acceptance
import LineShell.Proofs.Capacity
import LineShell.Proofs.FreshWord
import LineShell.Session

/-!
# Where suggestions go

An editor replaces a span of the line by what the user picks, and a span that begins or ends inside
a character would stop it.  The spans of suggestions are empty, so it is enough that the place is
right: behind a token it is, since nodes end between characters, and at the cursor in a separator it
is, since separators are made of characters of one byte.  A cursor inside a longer character is
always in another leaf.

* `PutAt` — where text goes for a cursor: behind its token, or where it stands.
* `kind_eq_separator` — a leaf where nothing is typed yet is a separator.
* `putAt_of_classify`, `exists_cut_insertAt` — the place for a node that is recognised.
* **`suggestions_fit_line`** — for every line, position, session and machine.
-/

namespace LineShell

/-- Where an editor puts text for a cursor on a line. -/
inductive PutAt (line : List Char) (cursor : Nat) : Nat → Prop where
  /-- At the end of the token that the cursor touches. -/
  | token (n : Node) : FindsLeaf (parse line) cursor n →
      n.kind = .primary .bareword ∨ n.kind = .primary .reference →
      n.start ≤ cursor → cursor ≤ n.stop → PutAt line cursor n.stop
  /-- At the cursor, which touches a separator: a word is to be started. -/
  | separator (n : Node) : FindsLeaf (parse line) cursor n → n.kind = .separator →
      PutAt line cursor cursor
  /-- At the start of an empty line. -/
  | emptyLine : line = [] → cursor = 0 → PutAt line cursor cursor

/-- Suggestions that can be applied: all are empty spans at one place on the line, which lies
between two characters or at an end. -/
def FitLine (line : List Char) (cursor : Nat) (suggestions : List Suggestion) : Prop :=
  ∃ place, PutAt line cursor place ∧ place ≤ byteSize line ∧
    (∃ before after, line = before ++ after ∧ byteSize before = place) ∧
    ∀ x ∈ suggestions, x.start = place ∧ x.stop = place

/-! ## The place for a node -/

section node

variable {line : List Char} {cursor : Nat} {k : ContextKind} {ctx : Context} {n : Node}

/-- A leaf where nothing is typed yet is a separator, as a line and a form have something inside. -/
lemma kind_eq_separator (hn : n ∈ (parse line).leaves) (hline : line ≠ [])
    (hkind : n.contextKind? = some k) (hk : k.isToken = false) : n.kind = .separator := by
  have htext := text_ne_nil_of_mem_nodes (Chunk.mem_nodes_of_mem_leaves hn) (.inr hline)
  have hparts := Node.isLeaf_iff.1 (List.mem_filter.1 hn).2
  rcases n with d | ⟨i, j, start, f | t⟩ | ⟨f, i, j, start, w | t⟩ | ⟨f, w, i, j, start, p⟩
  · have hnil : d.parts = [] := arrange_eq_nil_iff.1 (List.map_eq_nil_iff.1 hparts)
    exact absurd (by rw [Node.text, Chunk.text, hnil, List.flatMap_nil]) htext
  · have hnil : f.parts = [] := arrange_eq_nil_iff.1 (List.map_eq_nil_iff.1 hparts)
    exact absurd (by rw [Node.text, ChunkPart.text, Form.text, hnil, List.flatMap_nil]) htext
  · rfl
  · exact absurd hkind (by simp [Node.contextKind?])
  · rfl
  · exact absurd (hk.symm.trans (isToken_of_contextKind?_primary hkind)) (by simp)

lemma insertAt_of_not_token (hk : k.isToken = false) (h : k.classify n = some ctx) (pos : Nat) :
    ctx.insertAt pos = pos := by
  obtain rfl := kind_of_classify h
  rw [Context.insertAt]
  cases hkind : ctx.kind with
  | newCommand | newArgument => rfl
  | reference | commandHead | argument => exact absurd hk (by simp [hkind, ContextKind.isToken])

/-- A context of a token ends where its node does, which is a bare word or a reference. -/
lemma stop_and_kind_of_classify (hk : k.isToken = true) (h : k.classify n = some ctx) :
    ctx.stop = n.stop ∧ (n.kind = .primary .bareword ∨ n.kind = .primary .reference) := by
  obtain ⟨f, w, p, head, rfl, hp, rfl⟩ := exists_segment_of_classify hk h
  refine ⟨rfl, ?_⟩
  rw [Node.kind, hp]
  cases k with
  | reference => exact .inr rfl
  | newCommand | commandHead | newArgument | argument => exact .inl rfl

lemma putAt_of_classify (hcursor : cursor ≤ byteSize line)
    (hctx : k.classify ((parse line).leafAt cursor) = some ctx) :
    PutAt line cursor (ctx.insertAt cursor) := by
  obtain ⟨hleaf, hstart, hstop, -⟩ := leafAt_start hcursor
  have hkind := isSome_classify_iff.1 (Option.isSome_of_eq_some hctx)
  by_cases hline : line = []
  · -- the root of an empty line is no token
    subst hline
    rw [leafAt_eq_root (.inl rfl)] at hctx hkind
    obtain rfl := Option.some.inj hkind
    rw [insertAt_of_not_token rfl hctx]
    exact .emptyLine rfl (Nat.le_zero.1 hcursor)
  · have hfinds := findsLeaf_leafAt hline hcursor
    cases hk : k.isToken with
    | true =>
        obtain ⟨hctxstop, hsegment⟩ := stop_and_kind_of_classify hk hctx
        rw [insertAt_of_classify hk hctx, hctxstop]
        exact .token _ hfinds hsegment hstart hstop
    | false =>
        rw [insertAt_of_not_token hk hctx]
        exact .separator _ hfinds (kind_eq_separator hleaf hline hkind hk)

/-- The line can be cut at the place. -/
lemma exists_cut_insertAt (hcursor : cursor ≤ byteSize line)
    (hctx : k.classify ((parse line).leafAt cursor) = some ctx) :
    ∃ before after, line = before ++ after ∧ byteSize before = ctx.insertAt cursor := by
  cases hk : k.isToken with
  | true =>
      obtain ⟨before, after, hline, hstart, -⟩ := rowAt_of_mem_nodes (leafAt_mem_nodes line cursor)
      rw [Node.flatMap_text_lexemes] at hline
      refine ⟨before ++ ((parse line).leafAt cursor).text, after, hline, ?_⟩
      rw [insertAt_of_classify hk hctx, (stop_and_kind_of_classify hk hctx).1, byteSize_append,
        hstart]
      rfl
  | false =>
      obtain ⟨before, after, hcut⟩ := exists_cutAt hk hcursor hctx
      refine ⟨before.flatMap Lexeme.text, after.flatMap Lexeme.text, hcut.text, ?_⟩
      rw [insertAt_of_not_token hk hctx, hcut.size]

end node

/-! ## Requests of an editor -/

lemma cursorNode_min (line : String) (pos : Nat) :
    cursorNode line (min pos (byteSize line.toList))
      = (parse line.toList).leafAt (min pos (byteSize line.toList)) := by
  rw [cursorNode, Nat.min_assoc, Nat.min_self]

/-- The suggestions of an outcome fit the line, if there are any. -/
lemma fitLine_suggestions {s : Settings} {list : Lister} {line : String} {pos : Nat}
    {snapshot : Snapshot} {o : Outcome}
    (h : complete (standardCompleters s list) line (min pos (byteSize line.toList)) snapshot
      = .ok o) :
    o.candidates = [] ∨ FitLine line.toList (min pos (byteSize line.toList))
      (o.suggestions (min pos (byteSize line.toList))) := by
  have hcursor : min pos (byteSize line.toList) ≤ byteSize line.toList := Nat.min_le_right _ _
  cases hctx : o.context with
  | none =>
      rcases outcome_cases h with rfl | ⟨k, ctx, g, -, -, rfl⟩
      · exact .inl rfl
      · by_cases hnil : g.1 = []
        · simp [hnil, Outcome.nothing]
        · exact absurd hctx (by simp [hnil])
  | some ctx =>
      have hclassify := classify_of_complete h hctx
      rw [cursorNode_min] at hclassify
      have hput := putAt_of_classify hcursor hclassify
      obtain ⟨before, after, hline, hsize⟩ := exists_cut_insertAt hcursor hclassify
      refine .inr ⟨_, hput, ?_, ⟨before, after, hline, hsize⟩, ?_⟩
      · rw [← hsize, hline, byteSize_append]
        exact Nat.le_add_right _ _
      · intro x hx
        obtain ⟨c, -, rfl⟩ := List.mem_map.1 hx
        rw [Candidate.toSuggestion, Outcome.insertAt, hctx]
        exact ⟨rfl, rfl⟩

/-- **Suggestions can be applied.**  A request of an editor, wherever its cursor is, is answered by
suggestions that all go to one place on the line, between two characters.  Nothing but a channel
larger than there can be stops it. -/
theorem suggestions_fit_line {M : Type} (host : Host M) (settings : Settings) (caller : Caller)
    (line : String) (pos : Nat) (s : Session M) :
    (∃ outcome suggestions s',
      s.suggest host settings caller line pos = .ok ((outcome, suggestions), s') ∧
      (suggestions = [] ∨
        FitLine line.toList (min pos (byteSize line.toList)) suggestions)) ∨
    (s.suggest host settings caller line pos = .error .channelTooLarge ∧
      Channel.maxCapacity < settings.channelCapacity) := by
  rw [Session.suggest]
  by_cases hwait : caller.canWait = true
  · simp only [if_pos hwait]
    rw [Session.complete]
    cases hcomplete : complete (standardCompleters settings (host.list s.machine)) line
        (min pos (byteSize line.toList)) s.snapshot with
    | error f =>
        obtain ⟨rfl, hcapacity, -⟩ := complete_eq_error_iff.1 hcomplete
        exact .inr ⟨rfl, hcapacity⟩
    | ok o =>
        refine .inl ⟨o, _, _, rfl, ?_⟩
        refine (fitLine_suggestions hcomplete).imp_left fun hnil => ?_
        rw [Outcome.suggestions, hnil, List.map_nil]
  · simp only [if_neg hwait]
    exact .inl ⟨_, _, _, rfl, .inl rfl⟩

end LineShell
