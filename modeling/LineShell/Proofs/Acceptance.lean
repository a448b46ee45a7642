import LineShell.Proofs.Extension
import LineShell.Proofs.Offers

/-!
# Accepting a candidate

A candidate is put into the line as it is, without quotes or escapes.  So what is offered can be
read back only where the grammar reads it back: a name whose missing part leaves the class of the
token is cut where it leaves it.

* `Offers.exists_name`, `Candidate.Shows` — a candidate shows the name that it makes.
* `TokenAt.value_leafAt` — how much of the text put in the token takes.
* `Accepted` — a line in which the token is the name that was offered.
* **`accepted_iff_token`** — for every line, position, snapshot and file system.
-/

namespace LineShell

/-! ## What a candidate shows -/

lemma Offers.exists_name {cs : List Candidate} {lead part : String} {shown : String → String}
    {names : List String} (h : Offers cs lead part shown names) {c : Candidate} (hc : c ∈ cs) :
    ∃ name ∈ names, c.fullName (lead ++ part) = lead ++ name ∧ c.display = shown name := by
  have hmem := List.mem_map_of_mem (f := fun c => (c.fullName (lead ++ part), c.display)) hc
  rw [h] at hmem
  obtain ⟨name, hname, heq⟩ := List.mem_map.1 hmem
  exact ⟨name, (List.mem_filter.1 hname).1, (congrArg Prod.fst heq).symm,
    (congrArg Prod.snd heq).symm⟩

/-- What a candidate shows is the name that it makes with the head of a context: a variable behind
its sigil, a command, or the last name of a path. -/
def Candidate.Shows (c : Candidate) (ctx : Context) : Prop :=
  match ctx.kind with
  | .reference => c.display = "$" ++ c.fullName ctx.head
  | .newCommand | .commandHead => c.display = c.fullName ctx.head
  | .newArgument | .argument =>
    ∃ lead part, CutAtSlash ctx.head lead part ∧ c.fullName ctx.head = lead ++ c.display

section request

variable {s : Settings} {list : Lister} {line : String} {pos : Nat} {snapshot : Snapshot}
  {o : Outcome} {ctx : Context}

/-- The context of an outcome is the one that the node at the cursor is recognised with. -/
lemma classify_of_complete (h : complete (standardCompleters s list) line pos snapshot = .ok o)
    (hctx : o.context = some ctx) : ctx.kind.classify (cursorNode line pos) = some ctx := by
  rcases outcome_cases h with rfl | ⟨k, ctx', g, hctx', -, rfl⟩
  · exact absurd hctx (by simp [Outcome.nothing])
  · obtain rfl : ctx' = ctx := by
      by_cases hnil : g.1 = []
      · exact absurd hctx (by simp [hnil, Outcome.nothing])
      · simpa [hnil] using hctx
    rw [kind_of_classify hctx', hctx']

lemma Answers.exists_name {lead part : String} {shown : String → String} {names : List String}
    (h : Answers (.ok o) lead part shown names) {c : Candidate} (hc : c ∈ o.candidates) :
    ∃ name ∈ names, c.fullName (lead ++ part) = lead ++ name ∧ c.display = shown name := by
  obtain ⟨o', ho, -, hoffers⟩ := h
  obtain rfl := Except.ok.inj ho
  exact hoffers.exists_name hc

lemma OffersEntries.exists_name {lead part : String} (h : OffersEntries s list (.ok o) lead part)
    {c : Candidate} (hc : c ∈ o.candidates) : c.fullName (lead ++ part) = lead ++ c.display := by
  rw [OffersEntries] at h
  split at h
  · split at h
    · obtain ⟨name, -, hfull, hdisplay⟩ := Answers.exists_name h hc
      rw [hfull, hdisplay]
      rfl
    · exact absurd h (by simp)
  · obtain ⟨name, hname, -⟩ := Answers.exists_name h hc
    exact absurd hname (by simp)

lemma shows_of_complete (h : complete (standardCompleters s list) line pos snapshot = .ok o)
    (hctx : o.context = some ctx) {c : Candidate} (hc : c ∈ o.candidates) : c.Shows ctx := by
  have hoffers := offersExactly s list line pos snapshot
  have hwants := (Chunk.wants_iff (cursorNode_mem_nodes line pos)).2
    ⟨ctx.kind, ctx, classify_of_complete h hctx, rfl⟩
  rw [Candidate.Shows]
  cases hkind : ctx.kind with
  | reference =>
      rw [hkind] at hwants
      have hanswers := hoffers.reference ctx.head hwants
      rw [h] at hanswers
      obtain ⟨name, -, hfull, hdisplay⟩ := hanswers.exists_name hc
      simp only [String.empty_append] at hfull
      exact hdisplay.trans (congrArg _ hfull.symm)
  | newCommand | commandHead =>
      rw [hkind] at hwants
      have hanswers := hoffers.command ctx.head hwants
      rw [h] at hanswers
      obtain ⟨name, -, hfull, hdisplay⟩ := hanswers.exists_name hc
      simp only [String.empty_append] at hfull
      exact hdisplay.trans hfull.symm
  | newArgument | argument =>
      rw [hkind] at hwants
      obtain ⟨lead, part, hcut, hentries⟩ := hoffers.path ctx.head hwants
      rw [h] at hentries
      refine ⟨lead, part, hcut, ?_⟩
      rw [hcut.append]
      exact hentries.exists_name hc

end request

/-! ## What is read back -/

lemma stops_dropWhile_append {p : Char → Bool} {rest : List Char} (h : Stops p rest)
    (u : List Char) : Stops p (u.dropWhile p ++ rest) := by
  have hdrop := stops_dropWhile p u
  cases hu : u.dropWhile p with
  | nil => exact h
  | cons c cs =>
      rw [hu] at hdrop
      exact stops_cons_iff.2 (stops_cons_iff.1 hdrop)

/-- The token takes of the text behind it what is of its class. -/
lemma TokenAt.value_leafAt {line line' : List Char} {k : ContextKind} {n : Node}
    {head u : List Char} {ls ms : List Lexeme} (h : TokenAt line k n head ls ms)
    (hinsert : insertAtByte? line n.stop u = some line') :
    ((parse line').leafAt n.stop).value = head ++ u.takeWhile k.isTokenChar := by
  rw [h.insertAtByte?_stop, ← u.takeWhile_append_dropWhile (p := k.isTokenChar),
    List.append_assoc (u.takeWhile _)] at hinsert
  obtain rfl := Option.some.inj hinsert
  have hall : ∀ c ∈ u.takeWhile k.isTokenChar, k.isTokenChar c = true :=
    fun c hc => List.mem_takeWhile_imp hc
  have hlex := h.lex_longer hall (stops_dropWhile_append h.stops u)
  have hle : n.stop ≤ byteSize (ls.flatMap Lexeme.text)
      + byteSize (k.segment (head ++ u.takeWhile k.isTokenChar)).text := by
    rw [k.text_segment_append, byteSize_append, h.stop_eq]
    omega
  obtain ⟨-, -, hvalue⟩ := leafAt_of_lex hlex h.start_lt_stop hle
  rw [hvalue _ rfl, k.value_segment]

/-- The number of nodes of a kind. -/
def Chunk.countKind (c : Chunk) (k : NodeKind) : Nat :=
  c.nodes.countP (·.kind = k)

lemma countKind_eq_of_cells {c d : Chunk} {g : Nat → Nat}
    (h : d.cells = c.cells.map (Cell.move g)) (k : NodeKind) : d.countKind k = c.countKind k := by
  have hcells (e : Chunk) : e.countKind k = e.cells.countP (·.kind = k) := by
    rw [Chunk.cells, List.countP_map]
    rfl
  rw [hcells, hcells, h, List.countP_map]
  rfl

/-- A line in which the token of a context has become a name, and nothing else has changed. -/
structure Accepted (line line' : List Char) (ctx : Context) (name : String) : Prop where
  forms : (parse line').countKind .form = (parse line).countKind .form
  words : (parse line').countKind .compound = (parse line).countKind .compound
  /-- The segment that the head is part of means the name. -/
  value : ((parse line').leafAt ctx.stop).value = name.toList
  /-- It is the same node as before and has the same part in the line. -/
  context : ∃ stop, ctx.kind.classify ((parse line').leafAt ctx.stop)
    = some ⟨ctx.kind, ctx.node, name, stop⟩

section token

variable {line line' : List Char} {k : ContextKind} {n : Node} {head u : List Char}
  {ls ms : List Lexeme}

lemma TokenAt.accepted (h : TokenAt line k n head ls ms) (hk : k.isToken = true)
    (hu : ∀ c ∈ u, k.isTokenChar c = true) (hinsert : insertAtByte? line n.stop u = some line') :
    Accepted line line' (.ofNode k n head) (String.ofList (head ++ u)) := by
  have hvalue := h.value_leafAt hinsert
  rw [List.takeWhile_eq_self_iff.2 hu] at hvalue
  have hlex := h.lex_longer hu h.stops
  rw [h.insertAtByte?_stop] at hinsert
  rw [Option.some.inj hinsert, lex_behind h.lexemes] at hlex
  have hcells := Node.Carried.map_cell_eq (h.forall₂_nodes hlex)
  obtain ⟨m, hm, hid, hstart, hstop, hclassify⟩ := h.exists_node hk hlex
  have hlt := h.start_lt_stop
  have hbegin := h.start
  have hfound : (parse line').leafAt n.stop = m :=
    leafAt_eq_of_mem_leaves hm (by omega) (by omega)
  refine ⟨countKind_eq_of_cells hcells _, countKind_eq_of_cells hcells _, ?_, m.stop, ?_⟩
  · rw [String.toList_ofList]
    exact hvalue
  · show k.classify ((parse line').leafAt n.stop)
      = some ⟨k, n.id, String.ofList (head ++ u), m.stop⟩
    rw [hfound, hclassify, Context.ofNode, hid]

/-- What is put in at the end of a token makes the name of it exactly if it is of the class of the
token. -/
lemma TokenAt.accepted_iff (h : TokenAt line k n head ls ms) (hk : k.isToken = true)
    (hinsert : insertAtByte? line n.stop u = some line') :
    Accepted line line' (.ofNode k n head) (String.ofList (head ++ u)) ↔
      ∀ c ∈ u, k.isTokenChar c = true := by
  constructor
  · intro haccepted
    have hvalue := haccepted.value
    rw [String.toList_ofList] at hvalue
    have htake := List.append_cancel_left ((h.value_leafAt hinsert).symm.trans hvalue)
    exact List.takeWhile_eq_self_iff.1 htake
  · intro hu
    exact h.accepted hk hu hinsert

end token

/-- **An accepted candidate names the thing it shows exactly if what it puts in is of the class of
the token**: nothing is quoted on the way into the line. -/
theorem accepted_iff_token {s : Settings} {list : Lister} {line : String} {pos : Nat}
    {snapshot : Snapshot} {o : Outcome} {ctx : Context} {c : Candidate}
    (h : complete (standardCompleters s list) line pos snapshot = .ok o)
    (hctx : o.context = some ctx) (hk : ctx.kind.isToken = true) (hc : c ∈ o.candidates) :
    c.Shows ctx ∧
      ∃ line', insertAtByte? line.toList (ctx.insertAt pos) c.insert.toList = some line' ∧
        (Accepted line.toList line' ctx (c.fullName ctx.head) ↔
          ∀ ch ∈ c.insert.toList, ctx.kind.isTokenChar ch = true) := by
  have hclassify := classify_of_complete h hctx
  have hat := insertAt_of_classify hk hclassify pos
  have hshows := shows_of_complete h hctx hc
  obtain ⟨head, ls, ms, hof, htoken⟩ :=
    exists_tokenAt hk (cursorNode_mem_nodes line pos) hclassify
  generalize ctx.kind = k at *
  subst hof
  have hname : c.fullName (Context.ofNode k (cursorNode line pos) head).head
      = String.ofList (head ++ c.insert.toList) := by
    rw [String.ofList_append, String.ofList_toList]
    rfl
  have hinsert := htoken.insertAtByte?_stop c.insert.toList
  rw [hat, hname]
  exact ⟨hshows, _, hinsert, htoken.accepted_iff hk hinsert⟩

lemma lex_set_v_a : lex "set v a".toList
    = [.primary (.bareword "set".toList), .space [' '], .primary (.bareword ['v']), .space [' '],
      .primary (.bareword ['a'])] := by
  simp [lex_cons, Lexeme.scan, Primary.scan, isTerminator, isSpace, isBareChar]

/-- Completing a path in a directory with one entry, whose name has blanks in it. -/
lemma complete_blank_name :
    complete (standardCompleters ⟨32, none, none, none⟩ fun _ => .ok [⟨"a  b", .file⟩])
        "set v a" 7 ⟨.empty, .empty, .empty⟩
      = .ok ⟨some "argument", some ⟨.argument, 9, "a", 7⟩, [⟨"  b", "a  b", none⟩], []⟩ := by
  have hctx : ContextKind.argument.classify (cursorNode "set v a" 7)
      = some ⟨.argument, 9, "a", 7⟩ := by
    rw [cursorNode, parse, lex_set_v_a]
    decide
  have hgenerate : generateFiles (fun _ => .ok [⟨"a  b", .file⟩]) 32 none "a"
      ⟨.empty, .empty, .empty⟩ [] = .ok ([⟨"  b", "a  b", none⟩], []) := by
    rw [generateFiles_of_ok _ rfl, Channel.create, if_neg (by decide), Except.map,
      Channel.drain_eq (by decide)]
    decide
  rw [complete_of_classify hctx]
  exact congrArg (Except.map _) hgenerate

/-- A candidate that the token takes nothing of. -/
theorem accepted_iff_token_blank_name :
    (⟨"  b", "a  b", none⟩ : Candidate).Shows ⟨.argument, 9, "a", 7⟩ ∧
      ∃ line', insertAtByte? "set v a".toList 7 "  b".toList = some line' ∧
        (Accepted "set v a".toList line' ⟨.argument, 9, "a", 7⟩ "a  b" ↔
          ∀ ch ∈ "  b".toList, isBareChar ch = true) :=
  accepted_iff_token complete_blank_name rfl rfl (List.mem_singleton_self _)

/-- The line has a word more than before, and the token is not the name that was offered. -/
theorem blank_name_is_cut :
    complete (standardCompleters ⟨32, none, none, none⟩ fun _ => .ok [⟨"a  b", .file⟩])
        "set v a" 7 ⟨.empty, .empty, .empty⟩
      = .ok ⟨some "argument", some ⟨.argument, 9, "a", 7⟩, [⟨"  b", "a  b", none⟩], []⟩ ∧
    insertAtByte? "set v a".toList 7 "  b".toList = some "set v a  b".toList ∧
    (parse "set v a".toList).countKind .compound = 3 ∧
    (parse "set v a  b".toList).countKind .compound = 4 ∧
    ((parse "set v a  b".toList).leafAt 7).value = ['a'] := by
  have hlex : lex "set v a  b".toList
      = [.primary (.bareword "set".toList), .space [' '], .primary (.bareword ['v']), .space [' '],
        .primary (.bareword ['a']), .space [' ', ' '], .primary (.bareword ['b'])] := by
    simp [lex_cons, Lexeme.scan, Primary.scan, isTerminator, isSpace, isBareChar]
  refine ⟨complete_blank_name, by decide, ?_, ?_, ?_⟩
  · rw [parse, lex_set_v_a]
    decide
  · rw [parse, hlex]
    decide
  · rw [parse, hlex]
    decide

end LineShell
