import LineShell.Proofs.WrittenTokens

/-!
# Reading what is written

A document that is written is read as the table it was written from.  The tokens are read one by
one, and each line leaves the reader at the start of the next with one thing more in the document:
an assignment at the end of its last section, or a section.  When the document is made a table, no
name is found in it already, so each is added at the end.

* `scalar?_write` — numbers and truth values are read as what they are.
* `foldlM_assignmentTokens`, `foldlM_sectionTokens`, `foldlM_documentTokens` — a line, a section and
  a document.
* `toTable_document` — the document as a table.
* **`read_writeSections`** — the round trip.
-/

namespace LineShell.Toml

/-! ## Numbers -/

lemma hexValue?_of_isDigit {c : Char} (h : c.isDigit = true) :
    hexValue? c = some (c.toNat - '0'.toNat) := by
  simp only [Char.isDigit, Bool.and_eq_true, decide_eq_true_eq] at h
  exact if_pos h

lemma isDigitOf_of_isDigit {c : Char} (h : c.isDigit = true) : isDigitOf 10 c = true := by
  have hlt : c.toNat - '0'.toNat < 10 := by
    have hhigh : c.toNat ≤ 57 := (Char.isDigit_iff_toNat.1 h).2
    show c.toNat - 48 < 10
    omega
  rw [isDigitOf, hexValue?_of_isDigit h]
  simpa using hlt

lemma foldl_digits {cs : List Char} (h : ∀ c ∈ cs, c.isDigit = true) (n : Nat) :
    cs.foldl (fun n c => 10 * n + (hexValue? c).getD 0) n = Nat.ofDigitChars 10 cs n := by
  induction cs generalizing n with
  | nil => rfl
  | cons c cs ih =>
      rw [List.forall_mem_cons] at h
      rw [List.foldl_cons, ih h.2, hexValue?_of_isDigit h.1]
      rfl

lemma isDigit_of_mem_toDigits {n : Nat} {c : Char} (h : c ∈ Nat.toDigits 10 n) :
    c.isDigit = true :=
  Nat.isDigit_of_mem_toDigits (by decide) (by decide) h

/-- The digits of a number stand for it. -/
lemma ofDigits_toDigits (n : Nat) : ofDigits 10 (Nat.toDigits 10 n) = n := by
  rw [ofDigits, foldl_digits fun _ => isDigit_of_mem_toDigits]
  exact Nat.ofDigitChars_toDigits (by decide) (by decide)

lemma head?_toDigits_ne_zero {n : Nat} (h : 0 < n) : (Nat.toDigits 10 n).head? ≠ some '0' := by
  induction n using Nat.strongRecOn with
  | ind n ih =>
      rcases Nat.lt_or_ge n 10 with hlt | hge
      · have hdigit : ∀ m < 10, 0 < m → Nat.digitChar m ≠ '0' := by decide
        rw [Nat.toDigits_of_lt_base hlt]
        simpa using hdigit n hlt h
      · have hfront := ih (n / 10) (by omega) (by omega)
        obtain ⟨c, cs, hcs⟩ := List.exists_cons_of_ne_nil (@Nat.toDigits_ne_nil (n / 10) 10)
        rw [hcs] at hfront
        rw [Nat.toDigits_of_base_le (by decide) hge, hcs]
        exact hfront

/-- A number is written with digits, the first of which is a zero for zero only. -/
lemma toDigits_cases (n : Nat) :
    ∃ c cs, Nat.toDigits 10 n = c :: cs ∧ c.isDigit = true ∧ (c = '0' → cs = []) := by
  obtain ⟨c, cs, hcs⟩ := List.exists_cons_of_ne_nil (@Nat.toDigits_ne_nil n 10)
  refine ⟨c, cs, hcs, isDigit_of_mem_toDigits (n := n) (by simp [hcs]), ?_⟩
  rintro rfl
  rcases Nat.eq_zero_or_pos n with rfl | hpos
  · exact (List.cons.inj hcs).2.symm
  · exact absurd (by rw [hcs]; rfl) (head?_toDigits_ne_zero hpos)

lemma ungroup_eq_some {cs : List Char} (hne : cs ≠ []) (h : ∀ c ∈ cs, c.isDigit = true) :
    ungroup (isDigitOf 10) cs = some cs := by
  induction cs with
  | nil => exact absurd rfl hne
  | cons c cs ih =>
      rw [List.forall_mem_cons] at h
      have hc := isDigitOf_of_isDigit h.1
      cases cs with
      | nil => simp [ungroup, hc]
      | cons d ds =>
          have hd : d ≠ '_' := by
            rintro rfl
            exact absurd (h.2 '_' (by simp)) (by decide)
          simp [ungroup, hc, hd, ih (by simp) h.2]

/-- A number is read as itself. -/
lemma integer?_toDigits (n : Nat) : integer? (Nat.toDigits 10 n) = some (n : Int) := by
  obtain ⟨c, cs, hcs, hc, hzero⟩ := toDigits_cases n
  have hbase : splitBase? (c :: cs) = none := by
    unfold splitBase?
    split <;> simp_all
  have hsign : splitSign (c :: cs) = (false, c :: cs) := by
    unfold splitSign
    split <;> simp_all
  have hdigits : ∀ d ∈ c :: cs, d.isDigit = true := by
    rw [← hcs]
    exact fun _ => isDigit_of_mem_toDigits
  have hdecimal : decimal? (c :: cs) = some (c :: cs) := by
    rw [decimal?, ungroup_eq_some (by simp) hdigits]
    simpa using hzero
  have hvalue := ofDigits_toDigits n
  rw [hcs] at hvalue ⊢
  simp [integer?, hbase, hsign, hdecimal, hvalue]

/-- A value without quotes is read as what it is. -/
lemma scalar?_write {v : Plain} (h : v.token = .word v.write) :
    scalar? v.write = some v.toValue := by
  cases v with
  | string s => exact absurd h (by simp [Plain.token])
  | size n =>
      obtain ⟨c, cs, hcs, hc, -⟩ := toDigits_cases n
      have hne : ∀ w : List Char, w.head?.any Char.isDigit = false → Nat.toDigits 10 n ≠ w := by
        rintro w hw rfl
        simp [hcs, hc] at hw
      simp only [scalar?, Plain.write, integer?_toDigits, if_neg (hne "true".toList rfl),
        if_neg (hne "false".toList rfl)]
      rfl
  | flag b => cases b <;> rfl

/-! ## Dates -/

/-- No two words stand beside each other in an assignment, so none are joined. -/
lemma joinDates_assignmentTokens (a : String × Plain) (ts : List Token) :
    joinDates (assignmentTokens a ++ ts) = assignmentTokens a ++ joinDates ts := by
  obtain ⟨name, v⟩ := a
  cases v with
  | string s => simp [assignmentTokens, Plain.token, joinDates]
  | size n => simp [assignmentTokens, Plain.token, joinDates]
  | flag b => cases b <;> simp [assignmentTokens, Plain.token, joinDates]

lemma joinDates_assignments (as : List (String × Plain)) (ts : List Token) :
    joinDates (as.flatMap assignmentTokens ++ ts)
      = as.flatMap assignmentTokens ++ joinDates ts := by
  induction as with
  | nil => rfl
  | cons a as ih =>
      rw [List.flatMap_cons, List.append_assoc, joinDates_assignmentTokens, ih, List.append_assoc]

lemma joinDates_sectionTokens (s : String × List (String × Plain)) (ts : List Token) :
    joinDates (sectionTokens s ++ ts) = sectionTokens s ++ joinDates ts := by
  simp [sectionTokens, joinDates, joinDates_assignments]

lemma joinDates_documentTokens (ss : List (String × List (String × Plain))) :
    joinDates (documentTokens ss) = documentTokens ss := by
  fun_induction documentTokens ss with
  | case1 => simp [joinDates]
  | case2 s => simpa [joinDates] using joinDates_sectionTokens s []
  | case3 s ss _ ih => simp [joinDates_sectionTokens, joinDates, ih]

/-! ## Lines -/

/-- A bare word is a key of one name. -/
lemma DottedKey.start_addWord {word : List Char} (h : IsBare word) :
    DottedKey.start.addWord word = some ⟨[String.ofList word], false⟩ := by
  have hdot : ∀ c ∈ word, (c == '.') = false := by
    intro c hc
    rw [beq_eq_false_iff_ne]
    rintro rfl
    exact absurd (h.keyChars '.' hc) (by decide)
  have hall : word.all isKeyChar = true := List.all_eq_true.2 h.keyChars
  rw [addWord, List.splitOn, List.splitOnP_eq_singleton hdot]
  simp [addPart, addParts, addName, start, maxNesting, h.ne_nil, hall]

/-- A value that is written is read at once. -/
lemma step_token (d : Document) (stack : List Frame) (v : Plain) :
    Reader.step ⟨d, .value stack⟩ v.token
      = Reader.finish ⟨d, .value stack⟩ v.toValue stack := by
  rcases v.write_cases with ⟨s, rfl⟩ | ⟨-, htoken⟩
  · show Reader.finish _ (.string (String.ofList s.toList)) stack = _
    rw [String.ofList_toList]
    rfl
  · rw [htoken]
    show (scalar? v.write).bind _ = _
    rw [scalar?_write htoken]
    rfl

/-- An assignment leaves the reader at the start of a line, with the assignment at the end of the
document. -/
lemma foldlM_assignmentTokens {a : String × Plain} (h : IsBare a.1.toList) (d : Document) :
    (assignmentTokens a).foldlM Reader.step ⟨d, .lineStart⟩
      = some ⟨d.add ⟨[a.1], a.2.toValue⟩, .lineStart⟩ := by
  have hkey : Reader.step ⟨d, .lineStart⟩ (.word a.1.toList) = some ⟨d, .key ⟨[a.1], false⟩⟩ := by
    show (DottedKey.start.addWord a.1.toList).bind _ = _
    rw [DottedKey.start_addWord h, String.ofList_toList]
    rfl
  have hvalue : Reader.step ⟨d, .value [.line [a.1]]⟩ a.2.token
      = some ⟨d.add ⟨[a.1], a.2.toValue⟩, .lineEnd⟩ := step_token d _ a.2
  rw [assignmentTokens, List.foldlM_cons, hkey]
  show (a.2.token :: [.newline]).foldlM Reader.step ⟨d, .value [.line [a.1]]⟩ = _
  rw [List.foldlM_cons, hvalue]
  rfl

/-! ## Sections -/

/-- The assignment that is meant by a line. -/
def assignmentOf (a : String × Plain) : Assignment :=
  ⟨[a.1], a.2.toValue⟩

def sectionOf (s : String × List (String × Plain)) : Section :=
  ⟨false, [s.1], s.2.map assignmentOf⟩

namespace Document

lemma addToLast_append (a : Assignment) (ss : List Section) (s : Section) :
    addToLast a (ss ++ [s])
      = some (ss ++ [{ s with assignments := s.assignments ++ [a] }]) := by
  induction ss with
  | nil => rfl
  | cons t ss ih => simp [addToLast, ih]

/-- Assignments go to the end of the last section. -/
lemma add_append (top : List Assignment) (ss : List Section) (s : Section) (a : Assignment) :
    (⟨top, ss ++ [s]⟩ : Document).add a
      = ⟨top, ss ++ [{ s with assignments := s.assignments ++ [a] }]⟩ := by
  simp only [add, addToLast_append]

end Document

lemma foldlM_assignments {as : List (String × Plain)} (h : ∀ a ∈ as, IsBare a.1.toList)
    (top : List Assignment) (ss : List Section) (s : Section) :
    (as.flatMap assignmentTokens).foldlM Reader.step ⟨⟨top, ss ++ [s]⟩, .lineStart⟩
      = some ⟨⟨top, ss ++ [{ s with assignments := s.assignments ++ as.map assignmentOf }]⟩,
          .lineStart⟩ := by
  induction as generalizing s with
  | nil => simp [pure]
  | cons a as ih =>
      rw [List.forall_mem_cons] at h
      rw [List.flatMap_cons, List.foldlM_append, foldlM_assignmentTokens h.1,
        Document.add_append]
      show (as.flatMap assignmentTokens).foldlM Reader.step _ = _
      rw [ih h.2]
      simp [assignmentOf]

/-- A section leaves the reader at the start of a line, with the section at the end of the
document. -/
lemma foldlM_sectionTokens {s : String × List (String × Plain)} (hname : IsBare s.1.toList)
    (hkeys : ∀ a ∈ s.2, IsBare a.1.toList) (top : List Assignment) (ss : List Section) :
    (sectionTokens s).foldlM Reader.step ⟨⟨top, ss⟩, .lineStart⟩
      = some ⟨⟨top, ss ++ [sectionOf s]⟩, .lineStart⟩ := by
  have hheader : Reader.step ⟨⟨top, ss⟩, .bracket⟩ (.word s.1.toList)
      = some ⟨⟨top, ss⟩, .header false ⟨[s.1], false⟩⟩ := by
    show (DottedKey.start.addWord s.1.toList).bind _ = _
    rw [DottedKey.start_addWord hname, String.ofList_toList]
    rfl
  rw [sectionTokens, List.foldlM_append]
  have hfront : [.openBracket, .word s.1.toList, .closeBracket, .newline].foldlM Reader.step
      ⟨⟨top, ss⟩, .lineStart⟩ = some ⟨⟨top, ss ++ [⟨false, [s.1], []⟩]⟩, .lineStart⟩ := by
    show (Reader.step ⟨⟨top, ss⟩, .bracket⟩ (.word s.1.toList)).bind _ = _
    rw [hheader]
    rfl
  rw [hfront]
  exact foldlM_assignments hkeys top ss _

lemma foldlM_documentTokens {ss : List (String × List (String × Plain))} (h : WellNamed ss)
    (top : List Assignment) (before : List Section) :
    (documentTokens ss).foldlM Reader.step ⟨⟨top, before⟩, .lineStart⟩
      = some ⟨⟨top, before ++ ss.map sectionOf⟩, .lineStart⟩ := by
  obtain ⟨hnames, -, hkeys, -⟩ := h
  fun_induction documentTokens ss generalizing before with
  | case1 => simp [pure]
  | case2 s =>
      rw [foldlM_sectionTokens (hnames s (by simp)) (hkeys s (by simp))]
      rfl
  | case3 s ss _ ih =>
      rw [List.forall_mem_cons] at hnames hkeys
      rw [List.foldlM_append, foldlM_sectionTokens hnames.1 hkeys.1]
      show (documentTokens ss).foldlM Reader.step ⟨⟨top, before ++ [sectionOf s]⟩, .lineStart⟩ = _
      rw [ih _ hnames.2 hkeys.2]
      simp

/-- The tokens of a document are read as its sections. -/
lemma ofTokens?_documentTokens {ss : List (String × List (String × Plain))} (h : WellNamed ss) :
    Document.ofTokens? (documentTokens ss) = some ⟨[], ss.map sectionOf⟩ := by
  rw [Document.ofTokens?, Document.empty, foldlM_documentTokens h]
  rfl

/-! ## Tables -/

/-- What is new in a table comes at its end. -/
lemma alter_of_not_mem {key : String} {change : Option Value → Option Value} {es : Entries}
    {v : Value} (hkey : key ∉ es.map Prod.fst) (hv : change none = some v) :
    alter key change es = some (es ++ [(key, v)]) := by
  induction es with
  | nil => simp [alter, hv]
  | cons e es ih =>
      rw [List.map_cons, List.mem_cons, not_or] at hkey
      simp [alter, hkey.1, ih hkey.2]

/-- A row of things that are new in a table comes at its end. -/
lemma foldlM_of_fresh {α : Type} {f : Entries → α → Option Entries} {entry : α → String × Value}
    {xs : List α}
    (hf : ∀ x ∈ xs, ∀ es, (entry x).1 ∉ es.map Prod.fst → f es x = some (es ++ [entry x]))
    (es : Entries) (h : ((es ++ xs.map entry).map Prod.fst).Nodup) :
    xs.foldlM f es = some (es ++ xs.map entry) := by
  induction xs generalizing es with
  | nil => simp [pure]
  | cons x xs ih =>
      rw [List.forall_mem_cons] at hf
      rw [List.map_cons, List.append_cons] at h ⊢
      have hfresh : (entry x).1 ∉ es.map Prod.fst := by
        rw [List.append_assoc, List.map_append, List.nodup_append] at h
        exact fun hmem => h.2.2 _ hmem (entry x).1 (by simp) rfl
      rw [List.foldlM_cons, hf.1 es hfresh]
      exact ih hf.2 _ h

/-- The table that is meant by the assignments of a section. -/
def entriesOf (as : List (String × Plain)) : Entries :=
  as.map fun a => (a.1, a.2.toValue)

/-- The table that is meant by a document. -/
def tableOf (ss : List (String × List (String × Plain))) : Entries :=
  ss.map fun s => (s.1, .table .explicit (entriesOf s.2))

lemma assignAll_assignmentsOf {as : List (String × Plain)} (h : (as.map Prod.fst).Nodup) :
    assignAll (as.map assignmentOf) [] = some (entriesOf as) := by
  have hline : ∀ a ∈ as, ∀ es : Entries, a.1 ∉ es.map Prod.fst →
      assign (assignmentOf a).value (assignmentOf a).path es = some (es ++ [(a.1, a.2.toValue)]) :=
    fun a _ es hfresh => alter_of_not_mem hfresh rfl
  rw [assignAll, List.foldlM_map, entriesOf, ← List.nil_append (as.map _)]
  refine foldlM_of_fresh hline [] ?_
  simpa [Function.comp_def] using h

/-- **A document with names that are given once makes the table that is meant.** -/
theorem toTable_document {ss : List (String × List (String × Plain))} (h : WellNamed ss) :
    Document.toTable ⟨[], ss.map sectionOf⟩ = some (tableOf ss) := by
  -- A section fills a table of its own before that goes into the table of the document.
  have hsection : ∀ s ∈ ss, ∀ es : Entries, s.1 ∉ es.map Prod.fst →
      openTable (sectionOf s).inArray (assignAll (sectionOf s).assignments) (sectionOf s).path es
        = some (es ++ [(s.1, .table .explicit (entriesOf s.2))]) := by
    intro s hs es hfresh
    refine alter_of_not_mem hfresh ?_
    show (assignAll (s.2.map assignmentOf) []).map _ = _
    rw [assignAll_assignmentsOf (h.nodup_keys s hs)]
    rfl
  show (ss.map sectionOf).foldlM _ [] = _
  rw [List.foldlM_map, tableOf, ← List.nil_append (ss.map _)]
  refine foldlM_of_fresh hsection [] ?_
  simpa [Function.comp_def] using h.nodup

/-- **What is written is read as the table it was written from.** -/
theorem read_writeSections {ss : List (String × List (String × Plain))} (h : WellNamed ss) :
    read (writeSections ss) = some (tableOf ss) := by
  rw [read, documentText_writeSections h, Option.bind_some, lex_writeSections h, Option.bind_some,
    joinDates_documentTokens, ofTokens?_documentTokens h, Option.bind_some, toTable_document h]

/-! ## Looking up -/

/-- Where every key stands once, it is found with its value. -/
lemma lookup?_of_mem {es : Entries} (h : (es.map Prod.fst).Nodup) {e : String × Value}
    (he : e ∈ es) : lookup? e.1 es = some e.2 := by
  unfold lookup?
  induction es with
  | nil => exact absurd he (by simp)
  | cons f es ih =>
      obtain ⟨key, v⟩ := f
      rw [List.map_cons, List.nodup_cons] at h
      rcases List.mem_cons.1 he with rfl | hmem
      · simp
      · have hne : e.1 ≠ key := fun heq => h.1 (List.mem_map.2 ⟨e, hmem, heq⟩)
        rw [List.lookup_cons, beq_false_of_ne hne]
        exact ih h.2 hmem

/-- A section is found under its name. -/
lemma lookup?_tableOf {ss : List (String × List (String × Plain))} (h : WellNamed ss)
    {s : String × List (String × Plain)} (hs : s ∈ ss) :
    lookup? s.1 (tableOf ss) = some (.table .explicit (entriesOf s.2)) :=
  lookup?_of_mem (by simpa [tableOf, Function.comp_def] using h.nodup)
    (e := (s.1, .table .explicit (entriesOf s.2))) (List.mem_map_of_mem hs)

/-- The values of a section are found under their names. -/
lemma map_lookup?_entriesOf {as : List (String × Plain)} (h : (as.map Prod.fst).Nodup) :
    (as.map Prod.fst).map (lookup? · (entriesOf as)) = as.map fun a => some a.2.toValue := by
  rw [List.map_map]
  refine List.map_congr_left fun a ha => ?_
  exact lookup?_of_mem (by simpa [entriesOf, Function.comp_def] using h)
    (e := (a.1, a.2.toValue)) (List.mem_map_of_mem ha)

lemma entriesReadable_iff {es : Entries} :
    entriesReadable es = true ↔ ∀ e ∈ es, e.2.isReadable = true := by
  induction es with
  | nil => simp [entriesReadable]
  | cons e es ih => simp [entriesReadable, ih]

end LineShell.Toml
