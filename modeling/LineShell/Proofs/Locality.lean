import LineShell.Proofs.FreshWord
import LineShell.Proofs.Offers
import LineShell.Proofs.Sequencing

/-!
# Completion behind a terminator

What stands before a terminator makes no difference to completion behind it.  The tree of lines put
together is that of the first, the terminator, and that of the second (`parse_join`), the nodes of
which have moved to the right and got larger numbers.  A position behind the terminator touches
nothing of the first line, so it is looked up among moved nodes only, and a classifier reads nothing
of a node that has changed.

* `Placed.behind`, `Node.behind`, `Context.behind`, `Outcome.behind` — a part, a node, a context and
  an outcome, moved.
* `arrange_behind` — siblings move together.
* `ChunkPart.leafAt_behind` — a look-up among moved nodes.
* `Context.ofNode_behind`, `Node.classify_behind` — moved nodes are classified alike.
* `leafAt_join`, `leafAt_join_nil` — the node at a position behind the terminator.
* **`completion_behind_terminator`** — completion there is that of the second line alone.
-/

namespace LineShell

/-! ## Moved nodes -/

/-- The same part in another place, behind so many nodes, siblings and bytes. -/
def Placed.behind {α : Type} (count places size : Nat) (p : Placed α) : Placed α :=
  ⟨p.id + count, p.index + places, p.start + size, p.item⟩

/-- The same node in another place.  Inside a statement, places among siblings stay. -/
def Node.behind (count places size : Nat) : Node → Node
  | chunk c => chunk c
  | part p => part (p.behind count places size)
  | formPart f p => formPart (f.behind count places size) (p.behind count 0 size)
  | primary f w p =>
    primary (f.behind count places size) (w.behind count 0 size) (p.behind count 0 size)

section placed

variable {α : Type} [Piece α] (count places size : Nat)

lemma arrange_append (id index start : Nat) (as bs : List α) :
    arrange id index start (as ++ bs) = arrange id index start as
      ++ arrange (id + Piece.total as) (index + as.length)
        (start + byteSize (as.flatMap Piece.text)) bs := by
  induction as generalizing id index start with
  | nil => rfl
  | cons a as ih => simp [arrange, ih, total_cons, Nat.add_assoc, Nat.add_comm 1]

/-- Siblings move together. -/
lemma arrange_behind (id index start : Nat) (as : List α) :
    arrange (id + count) (index + places) (start + size) as
      = (arrange id index start as).map (Placed.behind count places size) := by
  induction as generalizing id index start with
  | nil => rfl
  | cons a as ih =>
      simp [arrange, ← ih, Placed.behind, Nat.add_right_comm]

lemma Placed.touches_iff {p : Placed α} {pos : Nat} :
    p.touches pos = true ↔ p.start ≤ pos ∧ pos ≤ p.stop := by
  simp [touches]

lemma Placed.touches_behind (p : Placed α) (pos : Nat) :
    (p.behind count places size).touches (pos + size) = p.touches pos := by
  rw [Bool.eq_iff_iff, touches_iff, touches_iff]
  simp only [stop, behind]
  omega

lemma find?_touches_behind (ps : List (Placed α)) (pos : Nat) :
    (ps.map (Placed.behind count places size)).find? (·.touches (pos + size))
      = (ps.find? (·.touches pos)).map (Placed.behind count places size) := by
  have htouches : (fun p : Placed α => p.touches (pos + size)) ∘ Placed.behind count places size
      = (·.touches pos) := by
    funext p
    exact p.touches_behind count places size pos
  rw [List.find?_map, htouches]

end placed

section leafAt

variable (count places size pos : Nat)

lemma FormPart.leafAt_behind (f : Placed Form) (p : Placed FormPart) :
    FormPart.leafAt (f.behind count places size) (p.behind count 0 size) (pos + size)
      = (FormPart.leafAt f p pos).behind count places size := by
  obtain ⟨id, index, start, w | t⟩ := p
  · have hplaced : Compound.placed ⟨id + count, index, start + size, w⟩
        = (Compound.placed ⟨id, index, start, w⟩).map (Placed.behind count 0 size) := by
      simp [Compound.placed, ← arrange_behind, Nat.add_right_comm]
    have hfind := find?_touches_behind count 0 size (Compound.placed ⟨id, index, start, w⟩) pos
    simp only [FormPart.leafAt, Placed.behind, Placed.withItem, Nat.add_zero, hplaced]
    rw [hfind]
    cases (Compound.placed ⟨id, index, start, w⟩).find? (·.touches pos) with
    | none => rfl
    | some q => rfl
  · rfl

/-- A look-up in a part that has moved finds the node that has moved with it. -/
lemma ChunkPart.leafAt_behind (p : Placed ChunkPart) :
    ChunkPart.leafAt (p.behind count places size) (pos + size)
      = (ChunkPart.leafAt p pos).behind count places size := by
  obtain ⟨id, index, start, f | t⟩ := p
  · have hplaced : Form.placed ⟨id + count, index + places, start + size, f⟩
        = (Form.placed ⟨id, index, start, f⟩).map (Placed.behind count 0 size) := by
      simp [Form.placed, ← arrange_behind, Nat.add_right_comm]
    have hfind := find?_touches_behind count 0 size (Form.placed ⟨id, index, start, f⟩) pos
    simp only [ChunkPart.leafAt, Placed.behind, Placed.withItem, hplaced]
    rw [hfind]
    cases (Form.placed ⟨id, index, start, f⟩).find? (·.touches pos) with
    | none => rfl
    | some q => exact FormPart.leafAt_behind count places size pos ⟨id, index, start, f⟩ q
  · rfl

lemma ChunkPart.leafAt_ne_chunk (p : Placed ChunkPart) (c : Chunk) :
    ChunkPart.leafAt p pos ≠ .chunk c := by
  unfold ChunkPart.leafAt FormPart.leafAt
  repeat' split
  all_goals simp

end leafAt

/-! ## Moved contexts -/

/-- The same context on a node that has moved; its head stays. -/
def Context.behind (count size : Nat) (ctx : Context) : Context :=
  { ctx with node := ctx.node + count, stop := ctx.stop + size }

/-- The same outcome on a node that has moved; completer, candidates and tips stay. -/
def Outcome.behind (count size : Nat) (o : Outcome) : Outcome :=
  { o with context := o.context.map (Context.behind count size) }

/-- A context holds nothing of its node but the place. -/
lemma Context.ofNode_behind (count places size : Nat) {n : Node} (hn : ∀ c, n ≠ .chunk c)
    (kind : ContextKind) (head : List Char) :
    Context.ofNode kind (n.behind count places size) head
      = (Context.ofNode kind n head).behind count size := by
  cases n with
  | chunk c => exact absurd rfl (hn c)
  | part p | formPart f p | primary f w p =>
      simp only [Context.ofNode, Context.behind, Node.behind, Node.id, Node.stop, Node.start,
        Node.text, Placed.behind, Nat.add_right_comm]

/-- Classifiers read nothing of a node that changes where it moves. -/
lemma Node.classify_behind (count places size : Nat) {n : Node} (hn : ∀ c, n ≠ .chunk c)
    (k : ContextKind) :
    k.classify (n.behind count places size) = (k.classify n).map (Context.behind count size) := by
  have hof := Context.ofNode_behind count places size hn
  cases n with
  | chunk c => exact absurd rfl (hn c)
  | part p =>
      cases k <;> simp [ContextKind.classify, Context.reference, Context.newCommand,
        Context.commandHead, Context.newArgument, Context.argument, Node.simpleCompound,
        Node.behind]
      exact hof _ _
  | formPart f p =>
      obtain ⟨i, j, start, part⟩ := p
      cases part <;> cases k <;> simp [ContextKind.classify, Context.reference, Context.newCommand,
        Context.commandHead, Context.newArgument, Context.argument, Node.simpleCompound,
        Node.behind, Placed.behind]
      exact hof _ _
  | primary f w p =>
      obtain ⟨i, j, start, p⟩ := p
      cases p with
      | bareword t =>
          by_cases hw : w.item.primaries.length = 1 <;> by_cases hi : w.index = 0 <;>
            cases k <;> simp [ContextKind.classify, Context.reference, Context.newCommand,
              Context.commandHead, Context.newArgument, Context.argument, Node.simpleCompound,
              Node.behind, Placed.behind, hw, hi] <;> exact hof _ _
      | reference name | singleQuoted body closed | doubleQuoted body closed =>
          cases k <;> simp [ContextKind.classify, Context.reference, Context.newCommand,
            Context.commandHead, Context.newArgument, Context.argument, Node.simpleCompound,
            Node.behind, Placed.behind] <;> exact hof _ _

/-! ## Lines put together -/

/-- The parts of lines put together: those of the first, the terminator, and those of the second,
moved. -/
lemma placed_join {a : List Char} (ha : QuotesClosed a) {c : Char} (hc : isTerminator c = true)
    (b : List Char) :
    (parse (a ++ c :: b)).placed = (parse a).placed
      ++ ⟨(parse a).nodes.length, (parse a).parts.length, byteSize a, .separator [c]⟩
      :: (parse b).placed.map
          (Placed.behind (parse a).nodes.length ((parse a).parts.length + 1) (byteSize a + 1)) := by
  have hsize : byteSize ((parse a).parts.flatMap Piece.text) = byteSize a :=
    congrArg byteSize (parse_text a)
  have hterminator : byteSize (Piece.text (ChunkPart.separator [c])) = 1 := by
    simp [Piece.text, ChunkPart.text, utf8Size_of_isTerminator hc]
  rw [Chunk.placed, parse_join ha hc, arrange_append, hsize, arrange, hterminator,
    Chunk.length_nodes, Chunk.placed, Chunk.placed, ← arrange_behind]
  have hone : Piece.count (ChunkPart.separator [c]) = 1 := rfl
  simp [hone, Nat.add_comm]

/-- The parts of a line end where it ends. -/
lemma find?_touches_of_lt {line : List Char} {pos : Nat} (h : byteSize line < pos) :
    (parse line).placed.find? (·.touches pos) = none := by
  refine List.find?_eq_none.2 ?_
  intro p hp
  have hmem : Node.part p ∈ (parse line).nodes :=
    Chunk.mem_nodes_of_mem_parts (parse line).root_mem_nodes (List.mem_map_of_mem hp)
  have hstop : p.stop ≤ byteSize line := stop_le_of_mem_nodes hmem
  rw [Placed.touches_iff]
  omega

section join

variable {a b : List Char} {c : Char} {pos : Nat}

/-- A position behind the start of a line touches a part of it. -/
lemma exists_find?_placed (hstart : 0 < pos) (hstop : pos ≤ byteSize b) :
    ∃ p, (parse b).placed.find? (·.touches pos) = some p := by
  have hparts : (Node.chunk (parse b)).parts ≠ [] := by
    intro hnil
    have hempty : (Node.chunk (parse b)).stop = 0 := by
      have htiles := Node.tiles_parts_chunk (parse b)
      rw [hnil] at htiles
      exact htiles.symm
    rw [stop_root] at hempty
    omega
  obtain ⟨n, hn, -⟩ := Node.exists_find?_touches (Node.tiles_parts_chunk (parse b)) hparts
    (Nat.zero_le pos) (by rw [stop_root]; exact hstop)
  rw [Node.parts, List.find?_map] at hn
  obtain ⟨p, hp, -⟩ := Option.map_eq_some_iff.1 hn
  exact ⟨p, hp⟩

/-- A position behind the first line touches nothing of it, but the terminator if it stands right
behind that. -/
lemma find?_placed_join (ha : QuotesClosed a) (hc : isTerminator c = true)
    (hpos : byteSize a < pos) :
    (parse (a ++ c :: b)).placed.find? (·.touches pos)
      = if pos = byteSize a + 1 then
          some ⟨(parse a).nodes.length, (parse a).parts.length, byteSize a, .separator [c]⟩
        else ((parse b).placed.map (Placed.behind (parse a).nodes.length
          ((parse a).parts.length + 1) (byteSize a + 1))).find? (·.touches pos) := by
  have hterminator : (Placed.mk (parse a).nodes.length (parse a).parts.length (byteSize a)
      (ChunkPart.separator [c])).touches pos = decide (pos = byteSize a + 1) := by
    rw [Bool.eq_iff_iff, Placed.touches_iff, decide_eq_true_iff]
    simp only [Placed.stop, Piece.text, ChunkPart.text, byteSize_cons, byteSize_nil,
      utf8Size_of_isTerminator hc]
    omega
  rw [placed_join ha hc, List.find?_append, find?_touches_of_lt hpos, Option.none_or,
    List.find?_cons, hterminator]
  by_cases h : pos = byteSize a + 1 <;> simp [h]

/-- Behind the terminator, the node at a position is that of the second line, moved. -/
lemma leafAt_join (ha : QuotesClosed a) (hc : isTerminator c = true) (hstart : 0 < pos)
    (hstop : pos ≤ byteSize b) :
    (∀ d, (parse b).leafAt pos ≠ .chunk d) ∧
      (parse (a ++ c :: b)).leafAt (pos + (byteSize a + 1))
        = ((parse b).leafAt pos).behind (parse a).nodes.length ((parse a).parts.length + 1)
          (byteSize a + 1) := by
  obtain ⟨p, hp⟩ := exists_find?_placed hstart hstop
  have hleaf : (parse b).leafAt pos = ChunkPart.leafAt p pos := by rw [Chunk.leafAt, hp]
  rw [hleaf]
  refine ⟨ChunkPart.leafAt_ne_chunk pos p, ?_⟩
  rw [Chunk.leafAt, find?_placed_join ha hc (by omega), if_neg (by omega), find?_touches_behind, hp]
  exact ChunkPart.leafAt_behind _ _ _ _ p

/-- Right behind the terminator, at the end of the line, it is the terminator itself. -/
lemma leafAt_join_nil (ha : QuotesClosed a) (hc : isTerminator c = true) :
    (parse (a ++ [c])).leafAt (byteSize a + 1)
      = .part ⟨(parse a).nodes.length, (parse a).parts.length, byteSize a, .separator [c]⟩ := by
  rw [Chunk.leafAt, find?_placed_join ha hc (Nat.lt_succ_self _), if_pos rfl]
  rfl

end join

/-! ## Completion -/

/-- A terminator is to the classifiers what the root of an empty line is. -/
lemma classify_terminator {c : Char} (hc : isTerminator c = true) (id index start : Nat)
    (k : ContextKind) :
    k.classify (.part ⟨id, index, start, .separator [c]⟩)
      = (k.classify (.chunk (parse []))).map (Context.behind id (start + 1)) := by
  have hstop : (Node.part ⟨id, index, start, .separator [c]⟩).stop = start + 1 := by
    simp [Node.stop, Node.start, Node.text, ChunkPart.text, utf8Size_of_isTerminator hc]
  have hroot : (Node.chunk (parse [])).stop = 0 := stop_root []
  cases k with
  | newCommand =>
      simp only [ContextKind.classify, Context.newCommand, Context.ofNode, Context.behind, hstop,
        hroot, Option.map_some, Node.id, Nat.zero_add]
  | reference | commandHead | newArgument | argument => rfl

section completion

variable {a b : String} {c : Char} {pos : Nat}

lemma cursorNode_joined (hc : isTerminator c = true) (hpos : pos ≤ byteSize b.toList) :
    cursorNode (joined a c b) (byteSize a.toList + 1 + pos)
      = (parse (a.toList ++ c :: b.toList)).leafAt (pos + (byteSize a.toList + 1)) := by
  have hsize : byteSize (a.toList ++ c :: b.toList)
      = byteSize a.toList + 1 + byteSize b.toList := by
    simp [utf8Size_of_isTerminator hc, Nat.add_assoc]
  have hmin : min (byteSize a.toList + 1 + pos) (byteSize (a.toList ++ c :: b.toList))
      = pos + (byteSize a.toList + 1) := by omega
  rw [cursorNode, toList_joined, hmin]

lemma classify_joined (ha : QuotesClosed a.toList) (hc : isTerminator c = true)
    (hpos : pos ≤ byteSize b.toList) (hstart : 0 < pos ∨ b = "") (k : ContextKind) :
    k.classify (cursorNode (joined a c b) (byteSize a.toList + 1 + pos))
      = (k.classify (cursorNode b pos)).map
          (Context.behind (parse a.toList).nodes.length (byteSize a.toList + 1)) := by
  rw [cursorNode_joined hc hpos, cursorNode, Nat.min_eq_left hpos]
  rcases hstart with hstart | rfl
  · obtain ⟨hchunk, hleaf⟩ := leafAt_join ha hc hstart hpos
    rw [hleaf, Node.classify_behind _ _ _ hchunk]
  · obtain rfl : pos = 0 := Nat.le_zero.1 hpos
    have hroot : (parse "".toList).leafAt 0 = .chunk (parse []) := leafAt_eq_root (.inl rfl)
    rw [hroot, Nat.zero_add]
    exact (congrArg k.classify (leafAt_join_nil ha hc)).trans (classify_terminator hc _ _ _ k)

/-- Where contexts are those of another request, moved, so is the outcome. -/
lemma complete_of_classify_behind {s : Settings} {list : Lister} {snapshot : Snapshot}
    {line line' : String} {pos' count size : Nat}
    (h : ∀ k : ContextKind, k.classify (cursorNode line' pos')
      = (k.classify (cursorNode line pos)).map (Context.behind count size)) :
    complete (standardCompleters s list) line' pos' snapshot
      = (complete (standardCompleters s list) line pos snapshot).map
          (Outcome.behind count size) := by
  cases hkind : (cursorNode line pos).contextKind? with
  | none =>
      have hkind' : (cursorNode line' pos').contextKind? = none := by
        refine Option.eq_none_iff_forall_ne_some.2 ?_
        intro k hk
        have hsome := isSome_classify_iff.2 hk
        rw [h, Option.isSome_map, isSome_classify_iff, hkind] at hsome
        simp at hsome
      rw [complete_of_none hkind, complete_of_none hkind']
      rfl
  | some k =>
      obtain ⟨ctx, hctx⟩ := Option.isSome_iff_exists.1 (isSome_classify_iff.2 hkind)
      have hctx' : k.classify (cursorNode line' pos') = some (ctx.behind count size) := by
        rw [h, hctx, Option.map_some]
      rw [complete_of_classify hctx, complete_of_classify hctx']
      have hhead : (ctx.behind count size).head = ctx.head := rfl
      rw [hhead]
      cases (standardCompleter s list k).generate ctx.head snapshot [] with
      | error e => rfl
      | ok g =>
          by_cases hnil : g.1 = [] <;>
            simp [Except.map, hnil, Outcome.nothing, Outcome.behind]

/-- **Completion behind a terminator is that of the second line alone**: the same completer, head,
candidates and tips, or the same fault, and the same context, moved behind the terminator. -/
theorem completion_behind_terminator (ha : QuotesClosed a.toList) (hc : isTerminator c = true)
    (hpos : pos ≤ byteSize b.toList) (hstart : 0 < pos ∨ b = "") (s : Settings) (list : Lister)
    (snapshot : Snapshot) :
    complete (standardCompleters s list) (joined a c b) (byteSize a.toList + 1 + pos) snapshot
      = (complete (standardCompleters s list) b pos snapshot).map
          (Outcome.behind (parse a.toList).nodes.length (byteSize a.toList + 1)) :=
  complete_of_classify_behind (classify_joined ha hc hpos hstart)

/-- A terminator between quotes does not count, and one behind the closing quote does. -/
theorem completion_behind_quoted_terminator :
    QuotesClosed "set v \"a;b\"".toList ∧ isTerminator ';' = true ∧
      5 ≤ byteSize "cat f".toList ∧
      ∀ (s : Settings) (list : Lister) (snapshot : Snapshot),
        complete (standardCompleters s list) (joined "set v \"a;b\"" ';' "cat f")
            (byteSize "set v \"a;b\"".toList + 1 + 5) snapshot
          = (complete (standardCompleters s list) "cat f" 5 snapshot).map
              (Outcome.behind (parse "set v \"a;b\"".toList).nodes.length
                (byteSize "set v \"a;b\"".toList + 1)) := by
  have hclosed : QuotesClosed "set v \"a;b\"".toList := by
    have hlast : (lex "set v \"a;b\"".toList).getLast?
        = some (.primary (.doubleQuoted "a;b".toList true)) := by
      simp [lex_cons, Lexeme.scan, Primary.scan, isTerminator, isSpace, isBareChar,
        Primary.scanQuoted, Primary.Quoted.cons]
    intro p hp
    rw [hlast] at hp
    obtain rfl := Lexeme.primary.inj (Option.some.inj hp)
    rfl
  exact ⟨hclosed, rfl, by decide,
    completion_behind_terminator hclosed rfl (by decide) (.inl (by decide))⟩

end completion

end LineShell
