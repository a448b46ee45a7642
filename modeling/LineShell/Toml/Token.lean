import LineShell.Toml.Escape

/-!
# Tokens of TOML

A document is checked for control characters and cut into tokens.  Blanks are kept, because the
brackets of a header have to stand together.  A line may end in a carriage return and a line feed;
in a string of several lines both belong to the text.

* `documentText` — the document that is to be cut, or nothing where a character is not allowed.
* `scanBody`, `scanString` — strings of either quote, on one line or on several.
* **`lex`** — the tokens of a document; `Token.scan_length_lt` says that each takes something away.
-/

namespace LineShell.Toml

/-! ## Characters -/

/-- The characters that a document may hold wherever they stand. -/
def isAllowed (c : Char) : Bool :=
  c == '\t' || c == '\n' || (0x20 ≤ c.toNat && c != '\x7f')

/-- Whether every character is allowed where it stands: a carriage return only before a line feed,
and no other control character but tabs and line feeds. -/
def allAllowed : List Char → Bool
  | [] => true
  | '\r' :: '\n' :: cs => allAllowed cs
  | c :: cs => isAllowed c && allAllowed cs

/-- The text of a document, without the mark of its encoding that it may begin with. -/
def documentText (cs : List Char) : Option (List Char) :=
  let text := if cs.head? = some '\uFEFF' then cs.drop 1 else cs
  if allAllowed text then some text else none

/-- The characters of a word: those with no use of their own. -/
def isWordChar (c : Char) : Bool :=
  !(isBlank c || c == '\n' || c == '#' || c == '=' || c == ',' || c == '[' || c == ']'
    || c == '\x7b' || c == '\x7d' || c == '"' || c == '\'')

/-! ## Strings -/

/-- Ends a string at its quote.  Three quotes end a string of several lines; up to two further ones
directly after them still belong to its text. -/
def closeString (q : Char) (multiline : Bool) (cs : List Char) : Option (List Char × List Char) :=
  if multiline then
    if [q, q, q].isPrefixOf cs then
      let rest := cs.drop 3
      let extra := (rest.takeWhile (· == q)).take 2
      some (extra, rest.drop extra.length)
    else none
  else if [q].isPrefixOf cs then some ([], cs.drop 1)
  else none

/-- The inside of a string up to its end, and what follows.  With `escapes`, a backslash takes the
next character with it. -/
def scanBody (q : Char) (escapes multiline : Bool) : List Char → Option (List Char × List Char)
  | [] => none
  | c :: cs =>
    match closeString q multiline (c :: cs) with
    | some ends => some ends
    | none =>
      if !multiline && c == '\n' then none
      else if escapes && c == '\\' then
        match cs with
        | [] => none
        | d :: ds => (scanBody q escapes multiline ds).map fun r => (c :: d :: r.1, r.2)
      else (scanBody q escapes multiline cs).map fun r => (c :: r.1, r.2)

/-- A line end directly after the opening quotes is no part of the text. -/
def dropLineEnd : List Char → List Char
  | '\n' :: cs => cs
  | '\r' :: '\n' :: cs => cs
  | cs => cs

/-- The text of a string, whether it may span lines, and what follows it. -/
structure Scanned where
  text : List Char
  multiline : Bool
  rest : List Char
  deriving DecidableEq, Repr

/-- The text that is meant by the inside of a string: double quotes admit escapes. -/
def bodyText (q : Char) (multiline : Bool) (body : List Char) : Option (List Char) :=
  if q = '"' then unescape multiline .plain body else some body

/-- The string after an opening quote.  Two further quotes open a string of several lines. -/
def scanString (q : Char) (cs : List Char) : Option Scanned :=
  let multiline := [q, q].isPrefixOf cs
  let inside := if multiline then dropLineEnd (cs.drop 2) else cs
  (scanBody q (q == '"') multiline inside).bind fun r =>
    (bodyText q multiline r.1).map fun text => ⟨text, multiline, r.2⟩

/-! ## Tokens -/

/-- A piece of a document. -/
inductive Token where
  /-- A run of characters that begins a bare key or a value without quotes. -/
  | word (text : List Char)
  | string (text : List Char) (multiline : Bool)
  | equals
  | comma
  | openBracket
  | closeBracket
  | openBrace
  | closeBrace
  /-- A blank, or a comment by its first character. -/
  | blank (c : Char)
  | newline
  deriving DecidableEq, Repr

/-- The tokens of a single character. -/
def Token.ofChar? (c : Char) : Option Token :=
  match c with
  | ' ' => some (.blank ' ')
  | '\t' => some (.blank '\t')
  | '\r' => some (.blank '\r')
  | '\n' => some .newline
  | '=' => some .equals
  | ',' => some .comma
  | '[' => some .openBracket
  | ']' => some .closeBracket
  | '\x7b' => some .openBrace
  | '\x7d' => some .closeBrace
  | _ => none

/-- The token that begins with `c`, and the rest after it.  A comment goes up to the end of its
line. -/
def Token.scan (c : Char) (cs : List Char) : Option (Token × List Char) :=
  match Token.ofChar? c with
  | some t => some (t, cs)
  | none =>
    if c = '#' then some (.blank '#', cs.dropWhile (· != '\n'))
    else if c = '"' ∨ c = '\'' then
      (scanString c cs).map fun s => (.string s.text s.multiline, s.rest)
    else some (.word (c :: cs.takeWhile isWordChar), cs.dropWhile isWordChar)

theorem closeString_length_le {q : Char} {multiline : Bool} {cs : List Char}
    {r : List Char × List Char} (h : closeString q multiline cs = some r) :
    r.2.length ≤ cs.length := by
  unfold closeString at h
  split at h
  · split at h
    · obtain rfl := Option.some.inj h
      simp only [List.length_drop]
      omega
    · simp at h
  · split at h
    · obtain rfl := Option.some.inj h
      simp only [List.length_drop]
      omega
    · simp at h

theorem scanBody_length_le {q : Char} {escapes multiline : Bool} {cs : List Char}
    {r : List Char × List Char} (h : scanBody q escapes multiline cs = some r) :
    r.2.length ≤ cs.length := by
  revert r
  fun_induction scanBody q escapes multiline cs with
  | case1 => simp
  | case2 c cs ends hc =>
    intro r h
    obtain rfl := Option.some.inj h
    exact closeString_length_le hc
  | case3 => simp
  | case4 => simp
  | case5 c _ _ d ds _ ih =>
    intro r h
    obtain ⟨u, hu, rfl⟩ := Option.map_eq_some_iff.1 h
    exact Nat.le_succ_of_le (Nat.le_succ_of_le (@ih u hu))
  | case6 c cs _ _ _ ih =>
    intro r h
    obtain ⟨u, hu, rfl⟩ := Option.map_eq_some_iff.1 h
    exact Nat.le_succ_of_le (@ih u hu)

theorem dropLineEnd_length_le (cs : List Char) : (dropLineEnd cs).length ≤ cs.length := by
  unfold dropLineEnd
  split
  · exact Nat.le_succ _
  · exact Nat.le_add_right _ 2
  · exact Nat.le_refl _

theorem scanString_length_le {q : Char} {cs : List Char} {s : Scanned}
    (h : scanString q cs = some s) : s.rest.length ≤ cs.length := by
  obtain ⟨r, hr, h⟩ := Option.bind_eq_some_iff.1 h
  obtain ⟨t, -, rfl⟩ := Option.map_eq_some_iff.1 h
  refine Nat.le_trans (scanBody_length_le hr) ?_
  split
  · refine Nat.le_trans (dropLineEnd_length_le _) ?_
    simp
  · exact Nat.le_refl _

/-- Each token takes something away. -/
theorem Token.scan_length_lt {c : Char} {cs : List Char} {r : Token × List Char}
    (h : Token.scan c cs = some r) : r.2.length < (c :: cs).length := by
  have hd (p : Char → Bool) : (cs.dropWhile p).length < (c :: cs).length :=
    Nat.lt_succ_of_le (List.dropWhile_suffix p).length_le
  unfold Token.scan at h
  split at h
  · obtain rfl := Option.some.inj h
    exact Nat.lt_succ_self _
  · split at h
    · obtain rfl := Option.some.inj h
      exact hd _
    · split at h
      · obtain ⟨s, hs, rfl⟩ := Option.map_eq_some_iff.1 h
        exact Nat.lt_succ_of_le (scanString_length_le hs)
      · obtain rfl := Option.some.inj h
        exact hd _

def lex : List Char → Option (List Token)
  | [] => some []
  | c :: cs =>
    match _h : Token.scan c cs with
    | some (t, rest) => (lex rest).map (t :: ·)
    | none => none
termination_by cs => cs.length
decreasing_by exact Token.scan_length_lt _h

theorem lex_nil : lex [] = some [] := by
  rw [lex]

theorem lex_cons {c : Char} {cs rest : List Char} {t : Token}
    (h : Token.scan c cs = some (t, rest)) : lex (c :: cs) = (lex rest).map (t :: ·) := by
  rw [lex]
  split
  · next h' =>
    obtain ⟨rfl, rfl⟩ := Prod.mk.inj (Option.some.inj (h.symm.trans h'))
    rfl
  · next h' => simp [h] at h'

end LineShell.Toml
