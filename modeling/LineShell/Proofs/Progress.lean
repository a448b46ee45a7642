import LineShell.Proofs.Parts
import LineShell.Proofs.Reading

/-!
# The loops of a reader go forward

The loops over statements, words and segments count nothing.  They end because a loop further in
reads a character, and this holds because the classes of characters fit together: what a word does
not end at begins a segment, and a bareword begins only at a character that it takes.  `Point.rank`
says how long this can take: a step that reads nothing leads to a point of lower rank.

The nodes are counted as they are made.  A reader may be ahead of three nodes to a character by as
much as `Control.lead` says, which is when it has begun a statement or a word and not yet read of
it.

* `Point`, `Point.rank` — the points in the loops, and how far each is from reading something.
* `Ahead`, `Reached.ahead_of_step` — a step goes forward in position, or else in rank.
* `Reached.pos_lt_of_point_eq` — a reader that comes back to a point has read something.
* `Reached.exists_stopped` — every reader stops.
* `created`, `Reached.created_le_lead` — the nodes made so far, and how many they may be.
* **`reading_goes_forward`** — all this of every line.
-/

namespace LineShell

namespace LineReader

/-! ## Going round without reading -/

/-- The points in the loops, whatever has been read: the heads of loops, and what lies between. -/
inductive Point where
  | chunk
  | separators
  | statement
  | form
  | word
  | plain (k : Plain)
  | quoted
  | wordEnd
  | roundEnd
  | blanks
  | done
  deriving DecidableEq, Repr

def Control.point : Control → Point
  | chunk => .chunk
  | separators => .separators
  | statement => .statement
  | form _ => .form
  | word _ _ => .word
  | segment _ _ (.plain k _) => .plain k
  | segment _ _ (.quoted _ _) => .quoted
  | wordEnd _ => .wordEnd
  | roundEnd _ => .roundEnd
  | blanks _ _ => .blanks
  | done => .done

/-- How far a point is from reading a character, by what the next one is: a loop that takes it is
near, and a loop that it ends is far. -/
def Point.rank (rest : List Char) : Point → Nat
  | done => 0
  | form => 2
  | statement => 3
  | separators => 4
  | chunk => 5
  | roundEnd => 6
  | wordEnd => 7
  | word => if Stops isWordChar rest then 8 else 1
  | plain k => if Stops k.takes rest then 9 else 0
  | quoted => if rest = [] then 9 else 0
  | blanks => if Stops isSpace rest then 10 else 0

lemma Point.rank_word_le (rest : List Char) : word.rank rest ≤ 8 := by
  rw [rank]
  split <;> decide

/-- A segment that ends without reading something is far from it. -/
lemma Segment.Rounds.rank_eq {ps : List FormPart} {qs : List Primary} {s : Segment} {p : Primary}
    {rest : List Char} (h : s.Rounds rest (0, .inr p)) :
    (Control.segment ps qs s).point.rank rest = 9 := by
  cases h with
  | stop hstop => simp [Control.point, Point.rank, hstop]
  | unclosed => simp [Control.point, Point.rank]

lemma Control.Moves.rank_lt {c : Control} {rest : List Char} {m : Move} (h : c.Moves rest m)
    (hmeets : c.Meets rest) (hread : m.read = 0) :
    m.control.point.rank rest < c.point.rank rest := by
  cases h with
  | chunk | separated | finish | begin | noGap | formEnd | again => simp [point, Point.rank]
  | terminator | blank => exact absurd hread Nat.one_ne_zero
  | space hspace | gap hspace => simp [point, Point.rank, hspace]
  | form =>
      have hword : ¬ Stops isWordChar rest := hmeets
      simp [point, Point.rank, hword]
  | enter hword =>
      rcases Segment.enter_cases hword with ⟨henter, hbare⟩ | ⟨henter, -⟩
      · simp [henter, point, Point.rank, Plain.takes, hbare, hword]
      · exact absurd (henter.symm.trans hread) Nat.one_ne_zero
  | wordEnd hstop => simp [point, Point.rank, hstop]
  | round hround => exact absurd hread (hround.read_bounds.2 rfl).ne'
  | @segmentEnd ps qs s p rest k hround =>
      obtain rfl : k = 0 := hread
      rw [hround.rank_eq]
      exact Nat.lt_succ_of_le (Point.rank_word_le _)
  | separator hstop | gapEnd hstop => simp [point, Point.rank, hstop]

/-- A reader that has read more than another one, or as much and is nearer to reading on. -/
def Ahead (line : List Char) (r r' : LineReader) : Prop :=
  r.pos < r'.pos ∨ r.pos = r'.pos ∧
    r'.control.point.rank (line.drop r'.pos) < r.control.point.rank (line.drop r.pos)

lemma Ahead.trans {line : List Char} {r₁ r₂ r₃ : LineReader} (h : Ahead line r₁ r₂)
    (h' : Ahead line r₂ r₃) : Ahead line r₁ r₃ := by
  unfold Ahead at *
  omega

lemma Reached.ahead_of_step {line : List Char} {r r' : LineReader} (h : Reached line r)
    (hstep : Step line r r') : Ahead line r r' := by
  obtain ⟨m, hm, rfl⟩ := hstep.exists_moves
  rcases Nat.eq_zero_or_pos m.read with hread | hread
  · have hrank := hm.rank_lt h.sound.meets hread
    exact .inr ⟨by simp [hread], by simpa [hread] using hrank⟩
  · exact .inl (Nat.lt_add_of_pos_right hread)

lemma Reached.ahead_of_run {line : List Char} {r r' : LineReader} (h : Reached line r)
    (hrun : Relation.TransGen (Step line) r r') : Ahead line r r' := by
  induction hrun with
  | single hstep => exact h.ahead_of_step hstep
  | tail hrun hstep ih =>
      exact ih.trans (Reached.ahead_of_step (h.trans hrun.to_reflTransGen) hstep)

/-- A reader that comes back to a point has read something on the way. -/
theorem Reached.pos_lt_of_point_eq {line : List Char} {r r' : LineReader} (h : Reached line r)
    (hrun : Relation.TransGen (Step line) r r') (hpoint : r.control.point = r'.control.point) :
    r.pos < r'.pos := by
  rcases h.ahead_of_run hrun with hpos | ⟨hpos, hrank⟩
  · exact hpos
  · -- the rank is told by the point and the rest of the line
    rw [hpoint, hpos] at hrank
    exact absurd hrank (Nat.lt_irrefl _)

theorem Reached.exists_stopped {line : List Char} {r : LineReader} (h : Reached line r) :
    ∃ r', Relation.ReflTransGen (Step line) r r' ∧ r'.next? line = none := by
  match hnext : r.next? line with
  | none => exact ⟨r, .refl, hnext⟩
  | some q =>
      have hq : Reached line q := h.tail hnext
      have hbounded := hq.sound.bounded
      have hahead := h.ahead_of_step hnext
      obtain ⟨r', hrun, hstop⟩ := hq.exists_stopped
      exact ⟨r', hrun.head hnext, hstop⟩
termination_by (line.length - r.pos, r.control.point.rank (line.drop r.pos))
decreasing_by
  unfold Ahead at hahead
  simp only [Prod.lex_def]
  omega

/-! ## Counting nodes -/

/-- The nodes made for the parts that are not finished. -/
def Control.nodes : Control → Nat
  | form ps | wordEnd ps | roundEnd ps => 1 + Piece.total ps
  | word ps qs | segment ps qs _ => 1 + Piece.total ps + (1 + qs.length)
  | blanks f _ => 1 + f.elim 0 fun ps => 1 + Piece.total ps
  | chunk | separators | statement | done => 0

/-- The nodes that a reader has made: the root, those of the parts that are finished, and those of
the parts that are not. -/
def created (r : LineReader) : Nat :=
  1 + Piece.total r.parts + r.control.nodes

/-- How far the nodes may be ahead of three to a character. -/
def Control.lead : Control → Nat
  | form _ => 2
  | word _ qs => if qs = [] then 3 else 1
  | segment _ _ s => if s = .plain .bareword [] then 3 else 0
  | blanks _ t => if t = [] then 2 else 1
  | _ => 1

@[simp] lemma total_nil {α : Type} [Piece α] : Piece.total ([] : List α) = 0 :=
  rfl

@[simp] lemma count_separator (t : List Char) : Piece.count (ChunkPart.separator t) = 1 :=
  rfl

@[simp] lemma count_space (t : List Char) : Piece.count (FormPart.space t) = 1 :=
  rfl

/-- A bareword ends before what it does not take. -/
lemma Segment.Rounds.stops {s : Segment} {p : Primary} {rest : List Char} {k : Nat}
    (h : s.Rounds rest (k, .inr p)) (hs : s = .plain .bareword []) : Stops isBareChar rest := by
  subst hs
  cases h with
  | stop hstop => exact hstop

/-- A step takes no node back, and those that it makes are paid for by what it reads and by how
far the nodes may be ahead. -/
lemma Control.Moves.nodes_bounds {c : Control} {rest : List Char} {m : Move}
    (h : c.Moves rest m) (hmeets : c.Meets rest) :
    c.nodes ≤ Piece.total m.parts + m.control.nodes ∧
      Piece.total m.parts + m.control.nodes + c.lead ≤ c.nodes + 3 * m.read + m.control.lead := by
  cases h with
  | chunk | separated | finish => exact ⟨Nat.le_refl _, Nat.le_refl _⟩
  | terminator | space | begin | form | gap | noGap | again =>
      simp only [nodes, lead, total_nil, total_cons, count_separator, Option.elim, if_true,
        List.length_nil]
      omega
  | enter hword =>
      rcases Segment.enter_cases hword with ⟨henter, -⟩ | ⟨henter, hne⟩
      · simp only [nodes, lead, total_nil, henter, if_true]
        split <;> omega
      · simp only [nodes, lead, total_nil, henter, if_neg hne]
        split <;> omega
  | @wordEnd ps qs rest hstop =>
      have hqs : qs ≠ [] := fun hnil => hmeets hnil hstop
      simp only [nodes, lead, total_nil, total_append, total_cons, Node.count_word,
        total_primaries, if_neg hqs]
      omega
  | round hround =>
      have hread := hround.read_bounds.2 rfl
      simp only [nodes, lead, total_nil, if_neg hround.ne_bareword_nil]
      split <;> omega
  | @segmentEnd ps qs s p rest k hround =>
      have hs : s ≠ .plain .bareword [] := fun hs => hmeets hs (hround.stops hs)
      simp only [nodes, lead, total_nil, if_neg hs, List.length_append, List.length_singleton]
      split <;> omega
  | formEnd =>
      simp only [nodes, lead, total_nil, total_cons, Node.count_form]
      omega
  | blank =>
      simp only [nodes, lead, total_nil]
      split <;> omega
  | @separator t rest hstop =>
      have ht : t ≠ [] := fun hnil => hmeets hnil hstop
      simp only [nodes, lead, total_nil, total_cons, count_separator, Option.elim, if_neg ht]
      omega
  | @gapEnd ps t rest hstop =>
      have ht : t ≠ [] := fun hnil => hmeets hnil hstop
      simp only [nodes, lead, total_nil, total_append, total_cons, count_space, Option.elim,
        if_neg ht]
      omega

lemma Reached.created_le_of_step {line : List Char} {r r' : LineReader} (h : Reached line r)
    (hstep : Step line r r') : r.created ≤ r'.created := by
  obtain ⟨m, hm, rfl⟩ := hstep.exists_moves
  have hnodes := (hm.nodes_bounds h.sound.meets).1
  simp only [created, total_append]
  omega

lemma Reached.created_le_of_run {line : List Char} {r r' : LineReader} (h : Reached line r)
    (hrun : Relation.ReflTransGen (Step line) r r') : r.created ≤ r'.created := by
  induction hrun with
  | refl => exact Nat.le_refl _
  | tail hrun hstep ih => exact ih.trans (Reached.created_le_of_step (h.trans hrun) hstep)

/-- Three nodes to a character, and what the nodes may be ahead. -/
lemma Reached.created_le_lead {line : List Char} {r : LineReader} (h : Reached line r) :
    r.created ≤ 3 * r.pos + r.control.lead := by
  induction h with
  | refl => exact Nat.le_refl _
  | tail hrun hstep ih =>
      obtain ⟨m, hm, rfl⟩ := hstep.exists_moves
      have hnodes := (hm.nodes_bounds (Reached.sound hrun).meets).2
      simp only [created, total_append] at ih ⊢
      omega

/-! ## Reading a line -/

/-- The points where a statement or a word begins: each round over the words of a statement, and
the loop over segments while there are none. -/
def Control.Begins : Control → Prop
  | form _ => True
  | word _ qs => qs = []
  | _ => False

lemma Reached.exists_of_begins {line : List Char} {r : LineReader} (h : Reached line r)
    (hbegins : r.control.Begins) :
    ∃ c cs, line.drop r.pos = c :: cs ∧ isSpace c = false ∧ isTerminator c = false := by
  have hword : ¬ Stops isWordChar (line.drop r.pos) := by
    have hmeets := h.sound.meets
    obtain ⟨pos, parts, control⟩ := r
    cases control with
    | form ps => exact hmeets
    | word ps qs => exact hmeets hbegins
    | _ => exact hbegins.elim
  cases hrest : line.drop r.pos with
  | nil => exact absurd (hrest ▸ stops_nil _) hword
  | cons c cs =>
      rw [hrest] at hword
      exact ⟨c, cs, rfl, isWordChar_iff.1 (by simpa using hword)⟩

/-- **What holds of reading a line.** -/
structure GoesForward (line : List Char) : Prop where
  /-- A reader that comes back to a point, such as the head of a loop, has read something. -/
  progress : ∀ r r', Reached line r → Relation.TransGen (Step line) r r' →
    r.control.point = r'.control.point → r.pos < r'.pos
  /-- A statement or a word begins at a character that is neither a blank nor a terminator. -/
  entered : ∀ r, Reached line r → r.control.Begins →
    ∃ c cs, line.drop r.pos = c :: cs ∧ isSpace c = false ∧ isTerminator c = false
  bounded : ∀ r, Reached line r → r.pos ≤ line.length
  created : ∀ r, Reached line r → r.created ≤ 3 * line.length + 1
  /-- Every reader stops, at the end of the line and with its tree. -/
  stops : ∀ r, Reached line r → ∃ r', Relation.ReflTransGen (Step line) r r' ∧
    r'.next? line = none ∧ r'.pos = line.length ∧ Chunk.mk r'.parts = parse line ∧
    r'.created = (parse line).nodes.length

end LineReader

/-- **Reading goes forward.**  On every line each loop reads a character each time it comes round,
no position lies behind the end, and the reader stops there, the tree of the line read, with at
most three nodes to a character and the root. -/
theorem reading_goes_forward (line : List Char) : LineReader.GoesForward line where
  progress _ _ h hrun hpoint := h.pos_lt_of_point_eq hrun hpoint
  entered _ h hbegins := h.exists_of_begins hbegins
  bounded _ h := h.sound.bounded
  created r h := by
    obtain ⟨r', hrun, hstop⟩ := h.exists_stopped
    have hmono := h.created_le_of_run hrun
    have hend := LineReader.Reached.created_le_lead (h.trans hrun)
    rw [LineReader.Reached.eq_of_stopped (h.trans hrun) hstop] at hmono hend
    exact hmono.trans hend
  stops r h := by
    obtain ⟨r', hrun, hstop⟩ := h.exists_stopped
    obtain rfl := LineReader.Reached.eq_of_stopped (h.trans hrun) hstop
    refine ⟨_, hrun, hstop, rfl, rfl, ?_⟩
    rw [Chunk.length_nodes, Nat.add_comm]
    rfl

-- no fewer would do: one character makes a statement, a word and a segment
example : (parse ['a']).nodes.length = 3 * 1 + 1 := by cbv

end LineShell
