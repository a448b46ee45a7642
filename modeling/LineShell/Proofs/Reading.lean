import LineShell.Proofs.Grammar
import Mathlib.Logic.Relation

/-!
# Reading a line step by step

`parse` cuts a line into lexemes and groups them.  The same tree comes out of loops inside loops
that look at no more than the next character.  `LineReader` is that way of reading as a machine: it
stands at a position and at a point in the loops, and one step takes it to the next point.  What
the loops do at each character can then be said, which the tree alone does not show.

The two ways agree because each step leaves alone what the tree will be: `Control.foreseen` is the
rest of the tree, told from the point and the rest of the line without taking any steps.

* `Segment`, `Control` — the points in the loops, with what has been read of the parts not
  finished.
* `Control.move`, `Control.Moves` — what a step does at a point, as a function and as rules.
* `Control.Meets` — what the next character is like at a point.
* `LineReader.Step`, `LineReader.Reached` — the steps of a reader, and what they lead to.
* `Reached.sound` — wherever a reader has got to, its tree will be `parse line`.
* **`Reached.eq_of_stopped`** — a reader that has stopped has read the whole line, and its tree is
  `parse line`.
-/

namespace LineShell

namespace LineReader

lemma takeWhile_of_stops {p : Char → Bool} {rest : List Char} (h : Stops p rest) :
    rest.takeWhile p = [] :=
  takeWhile_append_of_stops (List.forall_mem_nil _) h

lemma dropWhile_of_stops {p : Char → Bool} {rest : List Char} (h : Stops p rest) :
    rest.dropWhile p = rest :=
  dropWhile_append_of_stops (List.forall_mem_nil _) h

/-! ## Reading a segment -/

inductive Quote where
  | single
  | double
  deriving DecidableEq, Repr

namespace Quote

def char : Quote → Char
  | single => '\''
  | double => '"'

/-- Whether a backslash takes the next character with it. -/
def escapes : Quote → Bool
  | single => false
  | double => true

def primary : Quote → List Char → Bool → Primary
  | single => .singleQuoted
  | double => .doubleQuoted

end Quote

/-- The segments that are runs of a class of characters. -/
inductive Plain where
  | bareword
  | name
  deriving DecidableEq, Repr

namespace Plain

def takes : Plain → Char → Bool
  | bareword => isBareChar
  | name => isVariableChar

def primary : Plain → List Char → Primary
  | bareword => .bareword
  | name => .reference

end Plain

/-- A segment being read, with the text that its loop has gone through. -/
inductive Segment where
  | plain (k : Plain) (text : List Char)
  | quoted (q : Quote) (body : List Char)
  deriving DecidableEq, Repr

namespace Segment

/-- The segment that a character begins, and how many characters are read before its loop. -/
def enter (c : Char) : Nat × Segment :=
  if c = '\'' then (1, quoted .single [])
  else if c = '"' then (1, quoted .double [])
  else if c = '$' then (1, plain .name [])
  else (0, plain .bareword [])

/-- The characters of words are those of barewords and the three that begin another segment. -/
lemma isBareChar_of_isWordChar {c : Char} (h : isWordChar c = true) (hsingle : c ≠ '\'')
    (hdouble : c ≠ '"') (hdollar : c ≠ '$') : isBareChar c = true := by
  obtain ⟨hspace, hterminator⟩ := isWordChar_iff.1 h
  exact isBareChar_iff.2 ⟨hspace, hterminator, hsingle, hdouble, hdollar⟩

/-- A segment begins with a character of its own, or as a bareword that has one before it. -/
lemma enter_cases {c : Char} (h : isWordChar c = true) :
    (enter c = (0, plain .bareword []) ∧ isBareChar c = true) ∨
      ((enter c).1 = 1 ∧ (enter c).2 ≠ plain .bareword []) := by
  unfold enter
  split_ifs with hsingle hdouble hdollar
  · exact .inr ⟨rfl, by simp⟩
  · exact .inr ⟨rfl, by simp⟩
  · exact .inr ⟨rfl, by simp⟩
  · exact .inl ⟨rfl, isBareChar_of_isWordChar h hsingle hdouble hdollar⟩

/-- One round of the loop of a segment: how many characters it reads, and whether the segment goes
on or has ended. -/
def next : Segment → List Char → Nat × (Segment ⊕ Primary)
  | plain k t, [] => (0, .inr (k.primary t))
  | plain k t, c :: _ =>
    if k.takes c then (1, .inl (plain k (t ++ [c]))) else (0, .inr (k.primary t))
  | quoted q body, [] => (0, .inr (q.primary body false))
  | quoted q body, c :: cs =>
    if q.escapes && c == '\\' then
      match cs with
      | [] => (1, .inl (quoted q (body ++ [c])))
      | d :: _ => (2, .inl (quoted q (body ++ [c, d])))
    else if c = q.char then (1, .inr (q.primary body true))
    else (1, .inl (quoted q (body ++ [c])))

/-- The rounds of the loop of a segment, each with what it asks of the rest of the line. -/
inductive Rounds : Segment → List Char → Nat × (Segment ⊕ Primary) → Prop
  | take {k : Plain} {t : List Char} {c : Char} {cs : List Char} : k.takes c = true →
      Rounds (plain k t) (c :: cs) (1, .inl (plain k (t ++ [c])))
  | stop {k : Plain} {t rest : List Char} : Stops k.takes rest →
      Rounds (plain k t) rest (0, .inr (k.primary t))
  | pair {q : Quote} {body cs : List Char} {d : Char} : q.escapes = true →
      Rounds (quoted q body) ('\\' :: d :: cs) (2, .inl (quoted q (body ++ ['\\', d])))
  | loneBackslash {q : Quote} {body : List Char} : q.escapes = true →
      Rounds (quoted q body) ['\\'] (1, .inl (quoted q (body ++ ['\\'])))
  | char {q : Quote} {body cs : List Char} {c : Char} : c ≠ q.char →
      (q.escapes = true → c ≠ '\\') →
      Rounds (quoted q body) (c :: cs) (1, .inl (quoted q (body ++ [c])))
  | closed {q : Quote} {body cs : List Char} :
      Rounds (quoted q body) (q.char :: cs) (1, .inr (q.primary body true))
  | unclosed {q : Quote} {body : List Char} :
      Rounds (quoted q body) [] (0, .inr (q.primary body false))

lemma rounds_next (s : Segment) (rest : List Char) : s.Rounds rest (s.next rest) := by
  have hescape : ∀ {q : Quote} {c : Char}, (q.escapes && c == '\\') = true →
      q.escapes = true ∧ c = '\\' := by simp
  fun_cases next s rest with
  | case1 k t => exact .stop (stops_nil _)
  | case2 k t c cs hc => exact .take hc
  | case3 k t c cs hc => exact .stop (by simpa using hc)
  | case4 q body => exact .unclosed
  | case5 q body c h =>
      obtain ⟨he, rfl⟩ := hescape h
      exact .loneBackslash he
  | case6 q body c h d cs =>
      obtain ⟨he, rfl⟩ := hescape h
      exact .pair he
  | case7 q body cs _ => exact .closed
  | case8 q body c cs h hc => exact .char hc (by simpa using h)

/-- A round reads something if the segment goes on, and never more than there is. -/
lemma Rounds.read_bounds {s : Segment} {rest : List Char} {m : Nat × (Segment ⊕ Primary)}
    (h : s.Rounds rest m) : m.1 ≤ rest.length ∧ (m.2.isLeft = true → 0 < m.1) := by
  cases h <;> simp

/-- A segment that has gone on has read something. -/
lemma Rounds.ne_bareword_nil {s s' : Segment} {rest : List Char} {k : Nat}
    (h : s.Rounds rest (k, .inl s')) : s' ≠ plain .bareword [] := by
  cases h <;> simp

/-- The segment when it will have been read, and the rest of the line after it. -/
def foreseen : Segment → List Char → Primary × List Char
  | plain k t, rest => (k.primary (t ++ rest.takeWhile k.takes), rest.dropWhile k.takes)
  | quoted q body, rest =>
    let s := Primary.scanQuoted q.char q.escapes rest
    (q.primary (body ++ s.body) s.closed, s.rest)

/-- A character of a word begins the segment that the scanner finds there. -/
lemma foreseen_enter {c : Char} (h : isWordChar c = true) (cs : List Char) :
    (enter c).2.foreseen ((c :: cs).drop (enter c).1) = Primary.scan c cs := by
  unfold enter Primary.scan
  split_ifs with hsingle hdouble hdollar
  · rfl
  · rfl
  · rfl
  · have hbare := isBareChar_of_isWordChar h hsingle hdouble hdollar
    simp [foreseen, Plain.primary, Plain.takes, hbare]

/-- What a round leaves to be foreseen: the same if the segment goes on, and the segment and the
rest of the line if it has ended. -/
lemma foreseen_eq_of_rounds {s : Segment} {rest : List Char} {m : Nat × (Segment ⊕ Primary)}
    (h : s.Rounds rest m) :
    s.foreseen rest = m.2.elim (·.foreseen (rest.drop m.1)) (·, rest.drop m.1) := by
  cases h with
  | take hc => simp [foreseen, hc]
  | stop hstop =>
      rw [foreseen, takeWhile_of_stops hstop, dropWhile_of_stops hstop, List.append_nil]
      rfl
  | pair he => simp [foreseen, he, Primary.scanQuoted_pair]
  | @loneBackslash q body he =>
      have hq : '\\' ≠ q.char := by cases q <;> decide
      simp [foreseen, Primary.scanQuoted, hq]
  | char hq he => simp [foreseen, Primary.scanQuoted_plain hq he]
  | @closed q body cs =>
      have he : q.escapes = true → q.char ≠ '\\' := by cases q <;> decide
      simp [foreseen, Primary.scanQuoted_close he]
  | unclosed => simp [foreseen, Primary.scanQuoted]

end Segment

/-! ## The points in the loops -/

/-- Where a reader stands, with the parts of the statement and the segments of the word that it
is in. -/
inductive Control where
  /-- at the head of the loop over statements -/
  | chunk
  /-- at the head of the loop over separators -/
  | separators
  /-- behind the separators, before a statement or the end of the line -/
  | statement
  /-- at the head of the loop over the words of a statement -/
  | form (ps : List FormPart)
  /-- at the head of the loop over the segments of a word -/
  | word (ps : List FormPart) (qs : List Primary)
  /-- at the head of the loop of a segment -/
  | segment (ps : List FormPart) (qs : List Primary) (s : Segment)
  /-- behind a word -/
  | wordEnd (ps : List FormPart)
  /-- behind a word and its blanks -/
  | roundEnd (ps : List FormPart)
  /-- at the head of the loop over blanks, of a statement or between two -/
  | blanks (form? : Option (List FormPart)) (text : List Char)
  | done
  deriving DecidableEq, Repr

/-- One step: how many characters it reads, the parts of the chunk it finishes, and where it
leads. -/
structure Move where
  read : Nat
  parts : List ChunkPart
  control : Control
  deriving DecidableEq, Repr

namespace Control

/-- What happens after the loop over blanks. -/
def blanksEnd (t : List Char) : Option (List FormPart) → Move
  | none => ⟨0, [.separator t], separators⟩
  | some ps => ⟨0, [], roundEnd (ps ++ [.space t])⟩

/-- The step at a point, before the rest of the line. -/
def move : Control → List Char → Option Move
  | chunk, _ => some ⟨0, [], separators⟩
  | separators, [] => some ⟨0, [], statement⟩
  | separators, c :: _ =>
    if isTerminator c then some ⟨1, [.separator [c]], separators⟩
    else if isSpace c then some ⟨0, [], blanks none []⟩
    else some ⟨0, [], statement⟩
  | statement, [] => some ⟨0, [], done⟩
  | statement, _ :: _ => some ⟨0, [], form []⟩
  | form ps, _ => some ⟨0, [], word ps []⟩
  | word ps qs, [] => some ⟨0, [], wordEnd (ps ++ [.word ⟨qs⟩])⟩
  | word ps qs, c :: _ =>
    if isSpace c || isTerminator c then some ⟨0, [], wordEnd (ps ++ [.word ⟨qs⟩])⟩
    else some ⟨(Segment.enter c).1, [], segment ps qs (Segment.enter c).2⟩
  | segment ps qs s, rest =>
    match s.next rest with
    | (k, .inl s') => some ⟨k, [], segment ps qs s'⟩
    | (k, .inr p) => some ⟨k, [], word ps (qs ++ [p])⟩
  | wordEnd ps, [] => some ⟨0, [], roundEnd ps⟩
  | wordEnd ps, c :: _ =>
    if isSpace c then some ⟨0, [], blanks (some ps) []⟩ else some ⟨0, [], roundEnd ps⟩
  | roundEnd ps, [] => some ⟨0, [.form ⟨ps⟩], chunk⟩
  | roundEnd ps, c :: _ =>
    if isTerminator c then some ⟨0, [.form ⟨ps⟩], chunk⟩ else some ⟨0, [], form ps⟩
  | blanks f t, [] => some (blanksEnd t f)
  | blanks f t, c :: _ =>
    if isSpace c then some ⟨1, [], blanks f (t ++ [c])⟩ else some (blanksEnd t f)
  | done, _ => none

/-- The steps at each point, each with what it asks of the rest of the line. -/
inductive Moves : Control → List Char → Move → Prop
  | chunk {rest : List Char} : Moves chunk rest ⟨0, [], separators⟩
  | terminator {c : Char} {cs : List Char} : isTerminator c = true →
      Moves separators (c :: cs) ⟨1, [.separator [c]], separators⟩
  | space {c : Char} {cs : List Char} : isSpace c = true →
      Moves separators (c :: cs) ⟨0, [], blanks none []⟩
  | separated {rest : List Char} : (∀ c ∈ rest.head?, isWordChar c = true) →
      Moves separators rest ⟨0, [], statement⟩
  | finish : Moves statement [] ⟨0, [], done⟩
  | begin {c : Char} {cs : List Char} : Moves statement (c :: cs) ⟨0, [], form []⟩
  | form {ps : List FormPart} {rest : List Char} : Moves (form ps) rest ⟨0, [], word ps []⟩
  | enter {ps : List FormPart} {qs : List Primary} {c : Char} {cs : List Char} :
      isWordChar c = true → Moves (word ps qs) (c :: cs)
        ⟨(Segment.enter c).1, [], segment ps qs (Segment.enter c).2⟩
  | wordEnd {ps : List FormPart} {qs : List Primary} {rest : List Char} :
      Stops isWordChar rest → Moves (word ps qs) rest ⟨0, [], wordEnd (ps ++ [.word ⟨qs⟩])⟩
  | round {ps : List FormPart} {qs : List Primary} {s s' : Segment} {rest : List Char} {k : Nat} :
      s.Rounds rest (k, .inl s') → Moves (segment ps qs s) rest ⟨k, [], segment ps qs s'⟩
  | segmentEnd {ps : List FormPart} {qs : List Primary} {s : Segment} {p : Primary}
      {rest : List Char} {k : Nat} :
      s.Rounds rest (k, .inr p) → Moves (segment ps qs s) rest ⟨k, [], word ps (qs ++ [p])⟩
  | gap {ps : List FormPart} {c : Char} {cs : List Char} : isSpace c = true →
      Moves (wordEnd ps) (c :: cs) ⟨0, [], blanks (some ps) []⟩
  | noGap {ps : List FormPart} {rest : List Char} : Stops isSpace rest →
      Moves (wordEnd ps) rest ⟨0, [], roundEnd ps⟩
  | formEnd {ps : List FormPart} {rest : List Char} : (∀ c ∈ rest.head?, isTerminator c = true) →
      Moves (roundEnd ps) rest ⟨0, [.form ⟨ps⟩], chunk⟩
  | again {ps : List FormPart} {c : Char} {cs : List Char} : isTerminator c = false →
      Moves (roundEnd ps) (c :: cs) ⟨0, [], form ps⟩
  | blank {f : Option (List FormPart)} {t : List Char} {c : Char} {cs : List Char} :
      isSpace c = true → Moves (blanks f t) (c :: cs) ⟨1, [], blanks f (t ++ [c])⟩
  | separator {t rest : List Char} : Stops isSpace rest →
      Moves (blanks none t) rest ⟨0, [.separator t], separators⟩
  | gapEnd {ps : List FormPart} {t rest : List Char} : Stops isSpace rest →
      Moves (blanks (some ps) t) rest ⟨0, [], roundEnd (ps ++ [.space t])⟩

lemma eq_done_of_move_eq_none {c : Control} {rest : List Char} (h : c.move rest = none) :
    c = done := by
  revert h
  fun_cases move c rest <;> simp

lemma moves_blanksEnd {f : Option (List FormPart)} {t rest : List Char} (h : Stops isSpace rest) :
    (blanks f t).Moves rest (blanksEnd t f) := by
  cases f with
  | none => exact .separator h
  | some ps => exact .gapEnd h

/-- A step keeps to the rules. -/
lemma moves_of_move : ∀ {c : Control} {rest : List Char} {m : Move}, c.move rest = some m →
    c.Moves rest m
  | chunk, _, _, rfl => .chunk
  | separators, [], _, rfl => .separated (by simp)
  | separators, c :: cs, m, h => by
      rw [move] at h
      split_ifs at h with hterminator hspace <;> obtain rfl := Option.some.inj h
      · exact .terminator hterminator
      · exact .space hspace
      · exact .separated (by simp [isWordChar, hterminator, hspace])
  | statement, [], _, rfl => .finish
  | statement, _ :: _, _, rfl => .begin
  | form _, _, _, rfl => .form
  | word _ _, [], _, rfl => .wordEnd (stops_nil _)
  | word ps qs, c :: cs, m, h => by
      rw [move] at h
      split_ifs at h with hends <;> obtain rfl := Option.some.inj h
      · exact .wordEnd (by simp [isWordChar, hends])
      · exact .enter (by simp [isWordChar, hends])
  | segment ps qs s, rest, m, h => by
      have hround := s.rounds_next rest
      rw [move] at h
      split at h <;> obtain rfl := Option.some.inj h
      · next hs => exact .round (hs ▸ hround)
      · next hs => exact .segmentEnd (hs ▸ hround)
  | wordEnd _, [], _, rfl => .noGap (stops_nil _)
  | wordEnd ps, c :: cs, m, h => by
      rw [move] at h
      split_ifs at h with hspace <;> obtain rfl := Option.some.inj h
      · exact .gap hspace
      · exact .noGap (by simpa using hspace)
  | roundEnd _, [], _, rfl => .formEnd (by simp)
  | roundEnd ps, c :: cs, m, h => by
      rw [move] at h
      split_ifs at h with hterminator <;> obtain rfl := Option.some.inj h
      · exact .formEnd (by simpa using hterminator)
      · exact .again (by simpa using hterminator)
  | blanks _ _, [], _, rfl => moves_blanksEnd (stops_nil _)
  | blanks f t, c :: cs, m, h => by
      rw [move] at h
      split_ifs at h with hspace <;> obtain rfl := Option.some.inj h
      · exact .blank hspace
      · exact moves_blanksEnd (by simpa using hspace)

/-- What the next character is like at a point.  Statements and words are entered at a character
of a word only, and the loops of barewords and blanks at a character that they take. -/
def Meets : Control → List Char → Prop
  | statement, rest => ∀ c ∈ rest.head?, isWordChar c = true
  | form _, rest => ¬ Stops isWordChar rest
  | word _ qs, rest => qs = [] → ¬ Stops isWordChar rest
  | segment _ _ s, rest => s = .plain .bareword [] → ¬ Stops isBareChar rest
  | roundEnd _, rest => Stops isSpace rest
  | blanks _ t, rest => t = [] → ¬ Stops isSpace rest
  | done, rest => rest = []
  | _, _ => True

theorem Moves.meets {c : Control} {rest : List Char} {m : Move} (h : c.Moves rest m)
    (hmeets : c.Meets rest) : m.control.Meets (rest.drop m.read) := by
  cases h with
  | chunk | terminator | wordEnd | formEnd | separator => trivial
  | space hspace => simp [Meets, hspace]
  | separated hrest => exact hrest
  | finish => rfl
  | begin => simpa [Meets] using hmeets
  | form => exact fun _ => hmeets
  | enter hword =>
      rcases Segment.enter_cases hword with ⟨henter, hbare⟩ | ⟨-, hne⟩
      · simp [Meets, henter, hbare]
      · exact fun hnil => absurd hnil hne
  | round hround => exact fun hnil => absurd hnil hround.ne_bareword_nil
  | segmentEnd => simp [Meets]
  | gap hspace => simp [Meets, hspace]
  | noGap hstop => exact hstop
  | @again ps c cs hterminator =>
      have hspace : isSpace c = false := stops_cons_iff.1 hmeets
      simp [Meets, isWordChar, hspace, hterminator]
  | blank => simp [Meets]
  | gapEnd hstop => exact hstop

lemma Moves.read_le {c : Control} {rest : List Char} {m : Move} (h : c.Moves rest m) :
    m.read ≤ rest.length := by
  cases h with
  | terminator | blank => simp
  | enter hword =>
      rcases Segment.enter_cases hword with ⟨henter, -⟩ | ⟨henter, -⟩ <;> simp [henter]
  | round hround => exact hround.read_bounds.1
  | segmentEnd hround => exact hround.read_bounds.1
  | _ => exact Nat.zero_le _

end Control

/-! ## What the tree will be -/

/-- The parts of the chunk from a statement on that has some parts already. -/
def goingOn (ps : List FormPart) (r : Remainder) : List ChunkPart :=
  .form ⟨ps ++ r.form⟩ :: r.chunk

lemma lex_of_isWordChar {c : Char} (h : isWordChar c = true) (cs : List Char) :
    lex (c :: cs) = .primary (Primary.scan c cs).1 :: lex (Primary.scan c cs).2 := by
  obtain ⟨hspace, hterminator⟩ := isWordChar_iff.1 h
  rw [lex_cons, Lexeme.scan]
  simp [hspace, hterminator]

lemma lex_of_isSpace {c : Char} (h : isSpace c = true) (cs : List Char) :
    lex (c :: cs) = .space ((c :: cs).takeWhile isSpace) :: lex ((c :: cs).dropWhile isSpace) := by
  rw [lex_cons, Lexeme.scan]
  simp [h, isTerminator_of_isSpace h]

lemma lex_of_isTerminator {c : Char} (h : isTerminator c = true) (cs : List Char) :
    lex (c :: cs) = .terminator c :: lex cs := by
  rw [lex_cons, Lexeme.scan, if_pos h]

/-- Where no word goes on, the statement does not begin with one. -/
lemma noWordFirst_of_stops {rest : List Char} (h : Stops isWordChar rest) :
    NoWordFirst (Remainder.ofLexemes (lex rest)).form := by
  cases rest with
  | nil => simp [Remainder.ofLexemes, NoWordFirst]
  | cons c cs =>
      by_cases hspace : isSpace c = true
      · rw [lex_of_isSpace hspace]
        trivial
      · have hterminator : isTerminator c = true := by simpa [isWordChar, hspace] using h
        rw [lex_of_isTerminator hterminator]
        trivial

lemma not_beginsWithSpace_lex {rest : List Char} (h : Stops isSpace rest) :
    ¬ BeginsWithSpace (lex rest) := by
  refine not_beginsWithSpace_of_stops (row_lex rest) ?_
  rwa [lex_flatMap_text, List.append_nil]

/-- A segment between two statements begins one. -/
lemma toParts_mapForm_consPrimary (p : Primary) (r : Remainder) :
    (r.mapForm (FormPart.consPrimary p)).toParts
      = goingOn [] (r.mapForm (FormPart.consPrimary p)) := by
  obtain ⟨form, after⟩ := r
  unfold Remainder.mapForm FormPart.consPrimary
  split <;> rfl

/-- Nothing belongs to a statement that ends here. -/
lemma form_ofLexemes_of_ends {rest : List Char} (h : ∀ c ∈ rest.head?, isTerminator c = true) :
    (Remainder.ofLexemes (lex rest)).form = [] := by
  cases rest with
  | nil => rw [lex_nil, Remainder.ofLexemes]
  | cons c cs => rw [lex_of_isTerminator (h c rfl), Remainder.ofLexemes]

namespace Control

/-- The rest of the tree, seen from a point: the parts of the chunk from the open one on. -/
def foreseen : Control → List Char → List ChunkPart
  | chunk, rest | separators, rest | statement, rest => (Remainder.ofLexemes (lex rest)).toParts
  | form ps, rest | wordEnd ps, rest | roundEnd ps, rest =>
    goingOn ps (Remainder.ofLexemes (lex rest))
  | word ps qs, rest => goingOn ps (Remainder.ofLexemes (qs.map .primary ++ lex rest))
  | segment ps qs s, rest =>
    goingOn ps (Remainder.ofLexemes
      (qs.map .primary ++ .primary (s.foreseen rest).1 :: lex (s.foreseen rest).2))
  | blanks f t, rest =>
    let r := Remainder.ofLexemes
      (.space (t ++ rest.takeWhile isSpace) :: lex (rest.dropWhile isSpace))
    match f with
    | none => r.toParts
    | some ps => goingOn ps r
  | done, _ => []

/-- A step changes nothing about what the tree will be. -/
theorem Moves.foreseen {c : Control} {rest : List Char} {m : Move} (h : c.Moves rest m)
    (hmeets : c.Meets rest) :
    c.foreseen rest = m.parts ++ m.control.foreseen (rest.drop m.read) := by
  cases h with
  | chunk | separated | form | noGap | again => rfl
  | terminator hterminator =>
      rw [Control.foreseen, lex_of_isTerminator hterminator]
      rfl
  | space hspace | gap hspace =>
      rw [Control.foreseen, lex_of_isSpace hspace]
      rfl
  | finish =>
      rw [Control.foreseen, lex_nil]
      rfl
  | @begin c cs =>
      have hword : isWordChar c = true := hmeets c rfl
      rw [Control.foreseen, lex_of_isWordChar hword, Remainder.ofLexemes,
        toParts_mapForm_consPrimary, List.drop_zero, Control.foreseen, lex_of_isWordChar hword]
      rfl
  | enter hword =>
      rw [Control.foreseen, lex_of_isWordChar hword, Control.foreseen,
        Segment.foreseen_enter hword, List.nil_append]
  | @wordEnd ps qs rest hstop =>
      -- there are segments, or the loop would not have ended here; and no word goes on with them
      have hqs : qs ≠ [] := fun hnil => hmeets hnil hstop
      simp only [Control.foreseen, Remainder.ofLexemes_primaries_append, goingOn,
        Remainder.mapForm, foldr_consPrimary hqs (noWordFirst_of_stops hstop)]
      rw [List.append_cons]
      rfl
  | round hround =>
      rw [Control.foreseen, Segment.foreseen_eq_of_rounds hround]
      rfl
  | segmentEnd hround =>
      simp only [Control.foreseen, Segment.foreseen_eq_of_rounds hround]
      rw [List.map_append, List.append_assoc]
      rfl
  | formEnd hends =>
      have hform := form_ofLexemes_of_ends hends
      rw [List.drop_zero, Control.foreseen, Control.foreseen, goingOn,
        Remainder.toParts_of_form_eq_nil hform, hform, List.append_nil]
      rfl
  | blank hspace => simp [Control.foreseen, hspace]
  | separator hstop =>
      -- the blanks before the rest are all there are, so they are one separator
      have hfirst := Remainder.form_ofLexemes_ne_space (not_beginsWithSpace_lex hstop)
      simp only [Control.foreseen, takeWhile_of_stops hstop, dropWhile_of_stops hstop,
        List.append_nil, Remainder.ofLexemes]
      exact Remainder.toParts_space_cons hfirst
  | gapEnd hstop =>
      simp only [Control.foreseen, takeWhile_of_stops hstop, dropWhile_of_stops hstop,
        List.append_nil, Remainder.ofLexemes, goingOn, Remainder.mapForm]
      rw [List.append_cons]
      rfl

end Control

end LineReader

/-! ## The reader -/

/-- A reader of a line: its position, the parts of the chunk that are finished, and where in the
loops it stands. -/
structure LineReader where
  pos : Nat
  parts : List ChunkPart
  control : LineReader.Control
  deriving DecidableEq, Repr

namespace LineReader

def start : LineReader :=
  ⟨0, [], .chunk⟩

/-- The reader after one step on a line. -/
def next? (line : List Char) (r : LineReader) : Option LineReader :=
  (r.control.move (line.drop r.pos)).map fun m => ⟨r.pos + m.read, r.parts ++ m.parts, m.control⟩

def Step (line : List Char) (r r' : LineReader) : Prop :=
  r.next? line = some r'

/-- What a reader of a line gets to from the start. -/
def Reached (line : List Char) (r : LineReader) : Prop :=
  Relation.ReflTransGen (Step line) start r

lemma Step.exists_moves {line : List Char} {r r' : LineReader} (h : Step line r r') :
    ∃ m, r.control.Moves (line.drop r.pos) m ∧
      r' = ⟨r.pos + m.read, r.parts ++ m.parts, m.control⟩ := by
  obtain ⟨m, hm, rfl⟩ := Option.map_eq_some_iff.1 h
  exact ⟨m, Control.moves_of_move hm, rfl⟩

/-- What holds of a reader of a line wherever it has got to. -/
structure Sound (line : List Char) (r : LineReader) : Prop where
  bounded : r.pos ≤ line.length
  meets : r.control.Meets (line.drop r.pos)
  foreseen : r.parts ++ r.control.foreseen (line.drop r.pos) = (parse line).parts

lemma Sound.step {line : List Char} {r r' : LineReader} (h : Sound line r)
    (hstep : Step line r r') : Sound line r' := by
  obtain ⟨m, hm, rfl⟩ := hstep.exists_moves
  have hread := hm.read_le
  rw [List.length_drop] at hread
  have hbounded := h.bounded
  refine ⟨by dsimp only; omega, ?_, ?_⟩
  · rw [← List.drop_drop]
    exact hm.meets h.meets
  · rw [← List.drop_drop, List.append_assoc, ← hm.foreseen h.meets]
    exact h.foreseen

theorem Reached.sound {line : List Char} {r : LineReader} (h : Reached line r) :
    Sound line r := by
  induction h with
  | refl => exact ⟨Nat.zero_le _, trivial, rfl⟩
  | tail _ hstep ih => exact ih.step hstep

/-- A reader that has stopped has read all of the line, and has its tree. -/
theorem Reached.eq_of_stopped {line : List Char} {r : LineReader} (h : Reached line r)
    (hstop : r.next? line = none) : r = ⟨line.length, (parse line).parts, .done⟩ := by
  obtain ⟨pos, parts, control⟩ := r
  have hsound := h.sound
  obtain rfl : control = .done :=
    Control.eq_done_of_move_eq_none (Option.map_eq_none_iff.1 hstop)
  have hrest : line.drop pos = [] := hsound.meets
  have hpos : pos = line.length := by
    have hbounded : pos ≤ line.length := hsound.bounded
    have := List.drop_eq_nil_iff.1 hrest
    omega
  have hparts : parts = (parse line).parts := by
    rw [← hsound.foreseen]
    exact (List.append_nil parts).symm
  rw [hpos, hparts]

end LineReader

end LineShell
