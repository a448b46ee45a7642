import LineShell.Proofs.Offers

/-!
# The capacity of the channel

The settings are refused where the channel would be empty, and accepted however large it is asked
to be.  A channel that is too large cannot be made: then a request stops the shell, but only where
a path is completed and the directory could be listed.  Nothing else about a request can fail.

* `generateFiles_eq_error_iff`, `generate_eq_error_iff` — when a generator fails.
* `complete_eq_error_iff` — when a request fails.
* `SafeButForCapacity` — what a request comes to under a configuration.
* **`completion_safe_iff`** — for every configuration, line, position, snapshot and file system.
-/

namespace LineShell

/-! ## Generators -/

section generators

variable {s : Settings} {list : Lister} {capacity : Nat} {styler : Option LsColors}
  {head : String} {snapshot : Snapshot} {tips : List String} {f : Fault}

lemma Channel.create_eq_error_iff {α : Type} {listing : List α} :
    Channel.create capacity listing = .error f ↔
      f = .channelTooLarge ∧ Channel.maxCapacity < capacity := by
  rw [Channel.create]
  split
  · next h => simp [h, eq_comm]
  · next h => simp [h]

lemma generateFiles_eq_error_iff :
    generateFiles list capacity styler head snapshot tips = .error f ↔
      f = .channelTooLarge ∧ Channel.maxCapacity < capacity ∧
        ∃ entries, list (splitPath head).1 = .ok entries := by
  cases hlist : list (splitPath head).1 with
  | error e => simp [generateFiles_of_error snapshot hlist]
  | ok entries =>
      rw [generateFiles_of_ok snapshot hlist]
      have hcreate : Channel.create capacity entries = .error f ↔
          f = .channelTooLarge ∧ Channel.maxCapacity < capacity := Channel.create_eq_error_iff
      cases hc : Channel.create capacity entries with
      | error e =>
          rw [hc] at hcreate
          simpa [Except.map] using hcreate
      | ok c =>
          rw [hc] at hcreate
          simpa [Except.map] using hcreate

/-- The generator for a kind of context fails only for a path, and only where it is listed. -/
lemma generate_eq_error_iff {k : ContextKind} :
    (standardCompleter s list k).generate head snapshot tips = .error f ↔
      f = .channelTooLarge ∧ Channel.maxCapacity < s.channelCapacity ∧
        k.wanted head = .path head ∧ ∃ entries, list (splitPath head).1 = .ok entries := by
  cases k with
  | reference | newCommand | commandHead =>
      simp [standardCompleter, generateVariables, generateCommands, ContextKind.wanted]
  | newArgument | argument =>
      show generateFiles list s.channelCapacity s.styler head snapshot tips = .error f ↔ _
      rw [generateFiles_eq_error_iff]
      simp [ContextKind.wanted]

/-- A generator has a tip only where it has nothing else: the directory could not be listed. -/
lemma tips_of_generate {k : ContextKind} {g : Generated}
    (h : (standardCompleter s list k).generate head snapshot [] = .ok g) :
    g.2 = [] ∨ ∃ dir e, list dir = .error e ∧ g = ([], [listingTip dir e]) := by
  cases k with
  | reference | newCommand | commandHead =>
      obtain rfl := Except.ok.inj h
      exact .inl rfl
  | newArgument | argument =>
      rcases generateFiles_cases snapshot h with ⟨e, hlist, rfl⟩ | ⟨received, rfl⟩
      · exact .inr ⟨_, e, hlist, rfl⟩
      · exact .inl rfl

end generators

/-! ## One request -/

section request

variable {s : Settings} {list : Lister} {line : String} {pos : Nat} {snapshot : Snapshot}

/-- A request fails where a path is wanted, its directory can be listed, and the channel for the
entries cannot be made. -/
lemma complete_eq_error_iff {f : Fault} :
    complete (standardCompleters s list) line pos snapshot = .error f ↔
      f = .channelTooLarge ∧ Channel.maxCapacity < s.channelCapacity ∧
        ∃ head entries, (parse line.toList).Wants (cursorNode line pos) (.path head) ∧
          list (splitPath head).1 = .ok entries := by
  have hnode := cursorNode_mem_nodes line pos
  cases hkind : (cursorNode line pos).contextKind? with
  | none =>
      rw [complete_of_none hkind]
      constructor
      · intro h
        exact absurd h (by simp)
      · rintro ⟨-, -, head, entries, hwants, -⟩
        obtain ⟨k, ctx, hctx, -⟩ := (Chunk.wants_iff hnode).1 hwants
        have hsome := isSome_classify_iff.1 (Option.isSome_of_eq_some hctx)
        exact absurd (hkind.symm.trans hsome) (by simp)
  | some k =>
      obtain ⟨ctx, hctx⟩ := Option.isSome_iff_exists.1 (isSome_classify_iff.2 hkind)
      have hgenerate : complete (standardCompleters s list) line pos snapshot = .error f ↔
          (standardCompleter s list k).generate ctx.head snapshot [] = .error f := by
        rw [complete_of_classify hctx]
        cases (standardCompleter s list k).generate ctx.head snapshot [] <;> simp [Except.map]
      rw [hgenerate, generate_eq_error_iff]
      refine and_congr_right fun _ => and_congr_right fun _ => ?_
      -- the node has one context, so the path that is wanted is the head of it
      constructor
      · rintro ⟨hpath, entries, hlist⟩
        exact ⟨ctx.head, entries, (Chunk.wants_iff hnode).2 ⟨k, ctx, hctx, hpath⟩, hlist⟩
      · rintro ⟨head, entries, hwants, hlist⟩
        obtain ⟨k', ctx', hctx', hpath⟩ := (Chunk.wants_iff hnode).1 hwants
        obtain rfl := eq_of_classify hctx hctx'
        obtain rfl : ctx = ctx' := Option.some.inj (hctx.symm.trans hctx')
        have hhead : ctx.head = head := by
          cases k <;> simp [ContextKind.wanted] at hpath
          all_goals exact hpath
        exact ⟨by rw [hpath, hhead], entries, by rw [hhead]; exact hlist⟩

lemma tips_of_complete {o : Outcome}
    (h : complete (standardCompleters s list) line pos snapshot = .ok o) :
    o.tips = [] ∨ ∃ dir e, list dir = .error e ∧ o = .nothing [listingTip dir e] := by
  rcases outcome_cases h with rfl | ⟨k, ctx, g, -, hg, rfl⟩
  · exact .inl rfl
  · rcases tips_of_generate hg with htips | ⟨dir, e, hlist, rfl⟩
    · by_cases hnil : g.1 = [] <;> simp [hnil, htips, Outcome.nothing]
    · exact .inr ⟨dir, e, hlist, rfl⟩

end request

/-! ## Configurations -/

/-- A request under a configuration that fails for the capacity of the channel and for nothing
else. -/
structure SafeButForCapacity (c : Config) (lsColors : Option String) (list : Lister)
    (line : String) (pos : Nat) (snapshot : Snapshot) : Prop where
  /-- It fails where entries were listed and cannot be sent. -/
  fault : ∀ f,
    complete (standardCompleters (.ofConfig c lsColors) list) line pos snapshot = .error f ↔
      f = .channelTooLarge ∧ Channel.maxCapacity < c.completion.channelCapacity.toNat ∧
        ∃ head entries, (parse line.toList).Wants (cursorNode line pos) (.path head) ∧
          list (splitPath head).1 = .ok entries
  /-- A directory that cannot be listed leaves one tip and nothing else. -/
  tips : ∀ o,
    complete (standardCompleters (.ofConfig c lsColors) list) line pos snapshot = .ok o →
      o.tips = [] ∨ ∃ dir e, list dir = .error e ∧ o = .nothing [listingTip dir e]
  /-- The cursor, wherever it is, belongs to a node whose text can be cut out of the line. -/
  sliced : slice? line.toList (cursorNode line pos).start (cursorNode line pos).stop
    = some (cursorNode line pos).text

lemma safeButForCapacity (c : Config) (lsColors : Option String) (list : Lister) (line : String)
    (pos : Nat) (snapshot : Snapshot) :
    SafeButForCapacity c lsColors list line pos snapshot := by
  refine ⟨fun f => complete_eq_error_iff, fun o => tips_of_complete, ?_⟩
  obtain ⟨before, after, hline, hstart, -⟩ := rowAt_of_mem_nodes (cursorNode_mem_nodes line pos)
  rw [Node.flatMap_text_lexemes] at hline
  exact slice?_eq_some_iff.2 ⟨before, after, hline, hstart, rfl⟩

/-- Behind a word and a blank, entries of the current directory are wanted. -/
lemma wants_current_directory :
    (parse "cat ".toList).Wants (cursorNode "cat " 4) (.path "") := by
  have hlex : lex "cat ".toList = [.primary (.bareword "cat".toList), .space [' ']] := by
    simp [lex_cons, Lexeme.scan, Primary.scan, isTerminator, isSpace, isBareChar]
  have hctx : ContextKind.newArgument.classify (cursorNode "cat " 4)
      = some ⟨.newArgument, 4, "", 4⟩ := by
    rw [cursorNode, parse, hlex]
    decide
  exact (Chunk.wants_iff (cursorNode_mem_nodes "cat " 4)).2 ⟨.newArgument, _, hctx, rfl⟩

/-- **Completion is safe but for the capacity of the channel**: no request fails for another reason,
and a configuration with which none fails is one whose capacity a channel can have. -/
theorem completion_safe_iff (c : Config) :
    (∀ lsColors list line pos snapshot, SafeButForCapacity c lsColors list line pos snapshot) ∧
    ((∀ lsColors list line pos snapshot, ∃ o,
      complete (standardCompleters (.ofConfig c lsColors) list) line pos snapshot = .ok o) ↔
        c.completion.channelCapacity.toNat ≤ Channel.maxCapacity) := by
  refine ⟨safeButForCapacity c, ?_, ?_⟩
  · intro hsafe
    by_contra hlarge
    obtain ⟨o, ho⟩ := hsafe none (fun _ => .ok []) "cat " 4 ⟨.empty, .empty, .empty⟩
    have hfault : complete (standardCompleters (.ofConfig c none) fun _ => .ok []) "cat " 4
        ⟨.empty, .empty, .empty⟩ = .error .channelTooLarge :=
      complete_eq_error_iff.2 ⟨rfl, Nat.not_le.1 hlarge, "", [], wants_current_directory, rfl⟩
    exact absurd (ho.symm.trans hfault) (by simp)
  · intro hcapacity lsColors list line pos snapshot
    exact (servedOnce _ line pos snapshot).answered hcapacity list

/-- Settings that are accepted, with a channel of one entry more than there can be. -/
def hugeChannel : Config :=
  { completion := { channelCapacity := 2305843009213693952 }, history := { filePath := [] } }

/-- A request under accepted settings stops the shell. -/
theorem accepted_settings_stop_completion :
    hugeChannel.validate = .ok () ∧
      complete (standardCompleters (.ofConfig hugeChannel none) fun _ => .ok [⟨"a", .file⟩])
          "cat " 4 ⟨.empty, .empty, .empty⟩
        = .error .channelTooLarge :=
  ⟨by decide, complete_eq_error_iff.2
    ⟨rfl, by decide, "", [⟨"a", .file⟩], wants_current_directory, rfl⟩⟩

end LineShell
