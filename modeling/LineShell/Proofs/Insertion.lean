import LineShell.Proofs.Descent
import LineShell.Proofs.Joining
import LineShell.Proofs.OneShape

/-!
# Text put into a line

A completion puts text into a line.  Whether the line is then read as it was before is a question
about lexemes: a lexeme ends by what comes right behind it, so text that is put in behind it is seen
only where it begins.

* `insertAtByte?` — a line with a text put in at a byte; `none` inside a character.
* `shiftFrom` — where a byte of the line is found afterwards.
* `Lexeme.Row.of_cons`, `lex_replace` — a row of lexemes sees no more than the next character, so
  one lexeme can give way to another.
* `siblings_replace` — a row with one lexeme made longer at its end.
* `exists_lex_eq`, **`leafAt_of_lex`** — leaves are lexemes: a position finds the one that it lies
  in.
-/

namespace LineShell

/-! ## The longer line -/

/-- A line with a text put in at a byte, if a character begins there or the line ends. -/
def insertAtByte? (line : List Char) (n : Nat) (text : List Char) : Option (List Char) :=
  (splitAtByte? line n).map fun s => s.1 ++ text ++ s.2

lemma insertAtByte?_append (a b text : List Char) :
    insertAtByte? (a ++ b) (byteSize a) text = some (a ++ text ++ b) := by
  rw [insertAtByte?, splitAtByte?_append]
  rfl

/-- Where a byte is found after `d` bytes have been put in at byte `n`. -/
def shiftFrom (n d x : Nat) : Nat :=
  if n ≤ x then x + d else x

lemma shiftFrom_of_le {n x : Nat} (h : n ≤ x) (d : Nat) : shiftFrom n d x = x + d :=
  if_pos h

lemma shiftFrom_of_lt {n x : Nat} (h : x < n) (d : Nat) : shiftFrom n d x = x :=
  if_neg (Nat.not_le.2 h)

/-! ## What a row of lexemes sees of the text behind it -/

namespace Lexeme

lemma Munched.of_cons {l : Lexeme} {c : Char} {rest : List Char} (h : l.Munched (c :: rest))
    (rest' : List Char) : l.Munched (c :: rest') := by
  match l, h with
  | .terminator d, h => exact h
  | .space t, ⟨hne, hall, hstop⟩ => exact ⟨hne, hall, stops_cons_iff.2 (stops_cons_iff.1 hstop)⟩
  | .primary (.bareword t), ⟨hne, hall, hstop⟩ =>
      exact ⟨hne, hall, stops_cons_iff.2 (stops_cons_iff.1 hstop)⟩
  | .primary (.singleQuoted body closed), h => exact QuoteEnds.of_closed h (by simp) _
  | .primary (.doubleQuoted body closed), h => exact QuoteEnds.of_closed h (by simp) _
  | .primary (.reference name), ⟨hall, hstop⟩ =>
      exact ⟨hall, stops_cons_iff.2 (stops_cons_iff.1 hstop)⟩

lemma Row.of_cons {ls : List Lexeme} {c : Char} {rest : List Char} (h : Row ls (c :: rest))
    (rest' : List Char) : Row ls (c :: rest') := by
  induction ls with
  | nil => trivial
  | cons l ls ih =>
      obtain ⟨hl, hls⟩ := h
      refine ⟨?_, ih hls⟩
      -- the next character is that of the next lexeme, or `c` if there is none
      cases htext : ls.flatMap text with
      | nil =>
          rw [htext] at hl
          exact hl.of_cons rest'
      | cons d ds =>
          rw [htext] at hl
          exact hl.of_cons (ds ++ c :: rest')

end Lexeme

/-- A text behind a row of lexemes is read on its own, if the lexemes end where they should. -/
lemma lex_append {ls : List Lexeme} {rest : List Char} (h : Lexeme.Row ls rest) :
    lex (ls.flatMap Lexeme.text ++ rest) = ls ++ lex rest := by
  refine lex_eq_iff.2 ⟨?_, Lexeme.row_append_iff.2 ⟨?_, row_lex rest⟩⟩
  · rw [List.flatMap_append, lex_flatMap_text]
  · rwa [lex_flatMap_text, List.append_nil]

lemma munched_of_lex_eq {line : List Char} {ls ms : List Lexeme} {l : Lexeme}
    (h : lex line = ls ++ l :: ms) : l.Munched (ms.flatMap Lexeme.text) := by
  have hrow := row_lex line
  rw [h] at hrow
  have hmunched := (Lexeme.row_append_iff.1 hrow).2.1
  rwa [List.append_nil] at hmunched

lemma lex_suffix {line : List Char} {ls ms : List Lexeme} (h : lex line = ls ++ ms) :
    lex (ms.flatMap Lexeme.text) = ms := by
  have hrow := row_lex line
  rw [h] at hrow
  exact lex_eq_iff.2 ⟨rfl, (Lexeme.row_append_iff.1 hrow).2⟩

lemma lex_behind {line : List Char} {ls ms : List Lexeme} {l : Lexeme}
    (h : lex line = ls ++ l :: ms) : lex (ms.flatMap Lexeme.text) = ms := by
  refine @lex_suffix line (ls ++ [l]) ms ?_
  rw [h, List.append_assoc, List.singleton_append]

/-- A lexeme of a line gives way to another one that begins with the same character. -/
lemma lex_replace {line rest : List Char} {ls ms : List Lexeme} {l l' : Lexeme}
    (h : lex line = ls ++ l :: ms) {c : Char} {cs cs' : List Char} (hl : l.text = c :: cs)
    (hl' : l'.text = c :: cs') (hmunched : l'.Munched rest) :
    lex (ls.flatMap Lexeme.text ++ (l'.text ++ rest)) = ls ++ l' :: lex rest := by
  have hrow := row_lex line
  rw [h] at hrow
  obtain ⟨hls, -⟩ := Lexeme.row_append_iff.1 hrow
  rw [List.flatMap_cons, hl, List.cons_append, List.cons_append] at hls
  have hls' : Lexeme.Row (ls ++ [l']) rest := by
    refine Lexeme.row_append_iff.2 ⟨?_, hmunched, trivial⟩
    rw [List.flatMap_singleton, hl', List.cons_append]
    exact hls.of_cons _
  have hlex := lex_append hls'
  rw [List.flatMap_append, List.flatMap_singleton] at hlex
  simpa using hlex

/-! ## Where the lexemes are found -/

lemma Lexeme.carried_self {g : Nat → Nat} {start : Nat} {l : Lexeme} (h : Carries g start l l) :
    l.Carried g start l := by
  match l, h with
  | .terminator c, h => exact h
  | .space t, h => exact h
  | .primary p, h => exact ⟨rfl, h⟩

/-- What lies before the place stays. -/
lemma siblings_self_of_lt {n d start : Nat} {ls : List Lexeme}
    (h : start + byteSize (ls.flatMap Lexeme.text) < n) :
    Siblings (Lexeme.Carried (shiftFrom n d)) start ls ls := by
  induction ls generalizing start with
  | nil => trivial
  | cons l ls ih =>
      rw [List.flatMap_cons, byteSize_append] at h
      refine ⟨Lexeme.carried_self ?_, ih ?_⟩
      · show shiftFrom n d (start + byteSize l.text) = shiftFrom n d start + byteSize l.text
        rw [shiftFrom_of_lt (by omega), shiftFrom_of_lt (by omega)]
      · show start + byteSize l.text + byteSize (ls.flatMap Lexeme.text) < n
        omega

/-- What lies behind the place moves as a whole. -/
lemma siblings_self_of_le {n d start : Nat} {ls : List Lexeme} (h : n ≤ start) :
    Siblings (Lexeme.Carried (shiftFrom n d)) start ls ls := by
  induction ls generalizing start with
  | nil => trivial
  | cons l ls ih =>
      refine ⟨Lexeme.carried_self ?_, ih (Nat.le_add_right_of_le h)⟩
      show shiftFrom n d (start + byteSize l.text) = shiftFrom n d start + byteSize l.text
      rw [shiftFrom_of_le (Nat.le_add_right_of_le h), shiftFrom_of_le h]
      omega

/-- A row in which one segment is made longer by text put in at its end. -/
lemma siblings_replace {ls ms : List Lexeme} {p q : Primary} {t : List Char}
    (hkind : q.kind = p.kind) (htext : q.text = p.text ++ t) (hp : p.text ≠ []) :
    Siblings
      (Lexeme.Carried
        (shiftFrom (byteSize (ls.flatMap Lexeme.text) + byteSize p.text) (byteSize t))) 0
      (ls ++ .primary p :: ms) (ls ++ .primary q :: ms) := by
  have hpos := byteSize_pos hp
  refine Siblings.append (siblings_self_of_lt (by omega)) ⟨⟨hkind, ?_⟩, siblings_self_of_le ?_⟩
  · show shiftFrom _ _ (0 + byteSize (ls.flatMap Lexeme.text) + byteSize p.text)
      = shiftFrom _ _ (0 + byteSize (ls.flatMap Lexeme.text)) + byteSize q.text
    rw [Nat.zero_add, shiftFrom_of_le (Nat.le_refl _), shiftFrom_of_lt (by omega), htext,
      byteSize_append]
    omega
  · show _ ≤ 0 + byteSize (ls.flatMap Lexeme.text) + byteSize p.text
    omega

/-! ## Leaves and lexemes -/

lemma leafAt_mem_nodes (line : List Char) (pos : Nat) :
    (parse line).leafAt pos ∈ (parse line).nodes := by
  by_cases hpos : pos ≤ byteSize line
  · exact Chunk.mem_nodes_of_mem_leaves (leafAt_start hpos).1
  · rw [leafAt_eq_root (.inr (Nat.not_le.1 hpos))]
    exact Chunk.root_mem_nodes _

lemma parse_lexemes (line : List Char) : (parse line).lexemes = lex line :=
  Chunk.lexemes_ofLexemes (row_lex line)

/-- A node that is one lexeme stands where the lexeme does in the row. -/
lemma exists_lex_eq {line : List Char} {n : Node} (h : n ∈ (parse line).nodes) {l : Lexeme}
    (hl : n.lexemes = [l]) :
    ∃ ls ms, lex line = ls ++ l :: ms ∧ byteSize (ls.flatMap Lexeme.text) = n.start ∧
      n.text = l.text := by
  obtain ⟨ls, ms, hall, hstart⟩ := Chunk.stretchAt_of_mem_nodes n h
  refine ⟨ls, ms, ?_, hstart, ?_⟩
  · rw [← parse_lexemes, hall, hl, List.append_assoc]
    rfl
  · rw [← n.flatMap_text_lexemes, hl, List.flatMap_singleton]

lemma Lexeme.ofSeparator_ne_primary (t : List Char) (p : Primary) : ofSeparator t ≠ .primary p := by
  rcases ofSeparator_cases t with ⟨c, -, -, ht⟩ | ht <;> rw [ht] <;> simp

/-- A node with nothing inside it covers nothing, or is one lexeme and means what the lexeme
means. -/
lemma Node.lexemes_of_parts_eq_nil : ∀ {n : Node}, n.parts = [] →
    n.lexemes = [] ∨ ∃ l, n.lexemes = [l] ∧ ∀ p, l = .primary p → n.value = p.value
  | chunk c, h => by
      have hparts : c.parts = [] := arrange_eq_nil_iff.1 (List.map_eq_nil_iff.1 h)
      exact .inl (by rw [lexemes, Chunk.lexemes, hparts, List.flatMap_nil])
  | part ⟨_, _, _, .form f⟩, h => by
      have hparts : f.parts = [] := arrange_eq_nil_iff.1 (List.map_eq_nil_iff.1 h)
      exact .inl (by rw [lexemes, ChunkPart.lexemes, Form.lexemes, hparts, List.flatMap_nil])
  | formPart _ ⟨_, _, _, .word w⟩, h => by
      have hparts : w.primaries = [] := arrange_eq_nil_iff.1 (List.map_eq_nil_iff.1 h)
      exact .inl (by rw [lexemes, FormPart.lexemes, Compound.lexemes, hparts, List.map_nil])
  | part ⟨_, _, _, .separator t⟩, _ =>
      .inr ⟨_, rfl, fun p hp => absurd hp (Lexeme.ofSeparator_ne_primary t p)⟩
  | formPart _ ⟨_, _, _, .space t⟩, _ => .inr ⟨_, rfl, fun p hp => absurd hp (by simp)⟩
  | primary _ _ q, _ => .inr ⟨_, rfl, fun p hp => congrArg Primary.value (Lexeme.primary.inj hp)⟩

lemma exists_lexeme_of_mem_leaves {line : List Char} (hline : line ≠ []) {n : Node}
    (h : n ∈ (parse line).leaves) :
    ∃ l, n.lexemes = [l] ∧ ∀ p, l = .primary p → n.value = p.value := by
  have hmem := Chunk.mem_nodes_of_mem_leaves h
  rcases Node.lexemes_of_parts_eq_nil (Node.isLeaf_iff.1 (List.mem_filter.1 h).2) with hnil | hl
  · have htext := text_ne_nil_of_mem_nodes hmem (.inr hline)
    rw [← n.flatMap_text_lexemes, hnil] at htext
    exact absurd rfl htext
  · exact hl

lemma ne_nil_of_lt_byteSize {cs : List Char} {n : Nat} (h : n < byteSize cs) : cs ≠ [] := by
  rintro rfl
  exact absurd h (Nat.not_lt_zero n)

lemma stop_le_of_mem_nodes {line : List Char} {n : Node} (h : n ∈ (parse line).nodes) :
    n.stop ≤ byteSize line := by
  obtain ⟨before, after, hline, hstart, -⟩ := rowAt_of_mem_nodes h
  rw [Node.flatMap_text_lexemes] at hline
  rw [hline, byteSize_append, byteSize_append, Node.stop]
  omega

/-- A position that a leaf begins before, and does not end before, finds the leaf. -/
lemma leafAt_eq_of_mem_leaves {line : List Char} {n : Node} {pos : Nat}
    (h : n ∈ (parse line).leaves) (hstart : n.start < pos) (hstop : pos ≤ n.stop) :
    (parse line).leafAt pos = n := by
  have hsize := stop_le_of_mem_nodes (Chunk.mem_nodes_of_mem_leaves h)
  have hline : line ≠ [] := ne_nil_of_lt_byteSize (by omega : n.start < byteSize line)
  have hfinds := findsLeaf_leafAt hline (Nat.le_trans hstop hsize)
  exact ((hfinds.unique (by omega) n h).1 ⟨hstart, hstop⟩).symm

/-- A byte of a row of lexemes lies in one of them. -/
lemma eq_of_covers {ls ls' ms ms' : List Lexeme} {l l' : Lexeme} {pos : Nat}
    (h : ls ++ l :: ms = ls' ++ l' :: ms') (hlt : byteSize (ls.flatMap Lexeme.text) < pos)
    (hle : pos ≤ byteSize (ls.flatMap Lexeme.text) + byteSize l.text)
    (hlt' : byteSize (ls'.flatMap Lexeme.text) < pos)
    (hle' : pos ≤ byteSize (ls'.flatMap Lexeme.text) + byteSize l'.text) :
    ls = ls' ∧ l = l' := by
  induction ls generalizing ls' pos with
  | nil =>
      cases ls' with
      | nil => exact ⟨rfl, (List.cons.inj h).1⟩
      | cons x ls' =>
          obtain rfl : l = x := (List.cons.inj h).1
          rw [List.flatMap_cons, byteSize_append] at hlt'
          rw [List.flatMap_nil, byteSize_nil] at hle
          omega
  | cons x ls ih =>
      cases ls' with
      | nil =>
          obtain rfl : x = l' := (List.cons.inj h).1
          rw [List.flatMap_cons, byteSize_append] at hlt
          rw [List.flatMap_nil, byteSize_nil] at hle'
          omega
      | cons x' ls' =>
          obtain ⟨rfl, hrest⟩ := List.cons.inj h
          rw [List.flatMap_cons, byteSize_append] at hlt hle hlt' hle'
          obtain ⟨rfl, rfl⟩ : ls = ls' ∧ l = l' :=
            @ih ls' (pos - byteSize x.text) hrest (by omega) (by omega) (by omega) (by omega)
          exact ⟨rfl, rfl⟩

/-- **A position finds the lexeme that it lies in**, or that it is the end of. -/
theorem leafAt_of_lex {line : List Char} {ls ms : List Lexeme} {l : Lexeme} {pos : Nat}
    (h : lex line = ls ++ l :: ms) (hlt : byteSize (ls.flatMap Lexeme.text) < pos)
    (hle : pos ≤ byteSize (ls.flatMap Lexeme.text) + byteSize l.text) :
    ((parse line).leafAt pos).lexemes = [l] ∧
      ((parse line).leafAt pos).start = byteSize (ls.flatMap Lexeme.text) ∧
      ∀ p, l = .primary p → ((parse line).leafAt pos).value = p.value := by
  have hsize : byteSize (ls.flatMap Lexeme.text) + byteSize l.text ≤ byteSize line := by
    rw [← lex_flatMap_text line, h, List.flatMap_append, List.flatMap_cons, byteSize_append,
      byteSize_append]
    omega
  have hline : line ≠ [] :=
    ne_nil_of_lt_byteSize (by omega : byteSize (ls.flatMap Lexeme.text) < byteSize line)
  obtain ⟨hleaf, -, hstop, hstart⟩ := leafAt_start (Nat.le_trans hle hsize)
  obtain ⟨l', hl', hvalue⟩ := exists_lexeme_of_mem_leaves hline hleaf
  obtain ⟨ls', ms', hlex, hsize', htext⟩ := exists_lex_eq (Chunk.mem_nodes_of_mem_leaves hleaf) hl'
  rw [Node.stop, htext, ← hsize'] at hstop
  rw [← hsize'] at hstart
  obtain ⟨rfl, rfl⟩ := eq_of_covers (h.symm.trans hlex) hlt hle (by omega) hstop
  exact ⟨hl', hsize'.symm, hvalue⟩

end LineShell
