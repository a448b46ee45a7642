import LineShell.Proofs.Offers

/-!
# Typing narrows

What is offered after more has been typed need not be looked up anew: it is what was offered before,
as far as it goes on with the text that was typed, less that text.  For names this is so because a
name starts with two texts one after the other if what follows the first starts with the second.
For paths, text without a slash leads into no other directory.

* `narrowed` — candidates as they are after more has been typed.
* `restAfter_append`, `filterMap_matching_append` — a longer head, compared with a shorter one.
* `splitPath_append` — the directory stays while no slash is typed.
* `Narrows` — a generator that makes fewer candidates of the same kind for a longer head.
* **`typing_narrows`** — the three generators of the shell do.
-/

namespace LineShell

/-! ## Candidates after more has been typed -/

/-- The candidates that go on with a text, without the text, which is typed now. -/
def narrowed (t : String) (cs : List Candidate) : List Candidate :=
  (cs.filter fun c => t.toList <+: c.insert.toList).map fun c =>
    { c with insert := String.ofList (c.insert.toList.drop t.toList.length) }

lemma restAfter_append (head t name : String) :
    restAfter (head ++ t) name = (restAfter head name).bind (restAfter t) := by
  ext rest
  rw [Option.bind_eq_some_iff, restAfter_eq_some_iff]
  constructor
  · intro h
    exact ⟨t ++ rest, restAfter_eq_some_iff.2 (by rw [h, String.append_assoc]),
      restAfter_eq_some_iff.2 rfl⟩
  · rintro ⟨middle, hmiddle, hrest⟩
    rw [restAfter_eq_some_iff.1 hmiddle, restAfter_eq_some_iff.1 hrest, String.append_assoc]

lemma restAfter_eq_ite (t s : String) :
    restAfter t s
      = if t.toList <+: s.toList then some (String.ofList (s.toList.drop t.toList.length))
        else none := by
  split
  · next h =>
    obtain ⟨rest, hrest, rfl⟩ := restAfter_of_prefix h
    rw [hrest, String.toList_append, List.drop_left, String.ofList_toList]
  · next h => exact restAfter_eq_none_iff.2 h

lemma narrowed_eq_filterMap (t : String) (cs : List Candidate) :
    narrowed t cs
      = cs.filterMap fun c => (restAfter t c.insert).map fun rest => { c with insert := rest } := by
  rw [narrowed]
  induction cs with
  | nil => rfl
  | cons c cs ih =>
      by_cases h : t.toList <+: c.insert.toList
      · rw [List.filter_cons_of_pos (by simpa using h), List.map_cons, ih]
        simp only [List.filterMap_cons, restAfter_eq_ite, if_pos h, Option.map_some]
      · rw [List.filter_cons_of_neg (by simpa using h), ih]
        simp only [List.filterMap_cons, restAfter_eq_ite, if_neg h, Option.map_none]

@[simp] lemma narrowed_append (t : String) (cs ds : List Candidate) :
    narrowed t (cs ++ ds) = narrowed t cs ++ narrowed t ds := by
  rw [narrowed, List.filter_append, List.map_append]
  rfl

/-- The candidates for a longer head are among those for a shorter one. -/
lemma filterMap_matching_append {α : Type} (xs : List α) (name : α → String)
    (style : α → Option Style) (head t : String) (shown : String → String) :
    (xs.filterMap fun x => Candidate.matching (name x) (head ++ t) shown (style x))
      = narrowed t (xs.filterMap fun x => Candidate.matching (name x) head shown (style x)) := by
  rw [narrowed_eq_filterMap, List.filterMap_filterMap]
  refine List.filterMap_congr fun x _ => ?_
  rw [Candidate.matching, Candidate.matching, restAfter_append]
  cases restAfter head (name x) with
  | none => rfl
  | some rest => simp

/-- A candidate whose text has all been typed is still there. -/
lemma mem_narrowed_insert {cs : List Candidate} {c : Candidate} (h : c ∈ cs) :
    { c with insert := "" } ∈ narrowed c.insert cs := by
  refine List.mem_map.2 ⟨c, List.mem_filter.2 ⟨h, by simp⟩, ?_⟩
  rw [List.drop_length]

/-! ## Paths -/

/-- No other directory is meant while no slash is typed. -/
lemma splitPath_append {t : String} (h : '/' ∉ t.toList) (head : String) :
    splitPath (head ++ t) = ((splitPath head).1, (splitPath head).2 ++ t) := by
  have hfile : ((head ++ t).toList.reverse.takeWhile (· ≠ '/')).reverse
      = (head.toList.reverse.takeWhile (· ≠ '/')).reverse ++ t.toList := by
    have hall : ∀ c ∈ t.toList.reverse, decide (c ≠ '/') = true := by
      intro c hc
      have hne : c ≠ '/' := fun heq => h (heq ▸ List.mem_reverse.1 hc)
      simpa using hne
    rw [String.toList_append, List.reverse_append, List.takeWhile_append_of_pos hall,
      List.reverse_append, List.reverse_reverse]
  generalize hpart : (head.toList.reverse.takeWhile (· ≠ '/')).reverse = part at hfile
  have hle : part.length ≤ head.toList.length := by
    have hsublist := List.takeWhile_sublist (l := head.toList.reverse) fun c => decide (c ≠ '/')
    rw [← hpart, List.length_reverse, ← head.toList.length_reverse]
    exact hsublist.length_le
  -- the longer part is cut off the longer text, so what is left is the same
  have hdir : (head ++ t).toList.take ((head ++ t).toList.length - (part ++ t.toList).length)
      = head.toList.take (head.toList.length - part.length) := by
    rw [String.toList_append, List.length_append, List.length_append,
      Nat.add_sub_add_right, List.take_append_of_le_length (Nat.sub_le _ _)]
  rw [splitPath, splitPath]
  simp only [hfile, hdir, hpart]
  split
  · rfl
  · rw [String.ofList_append, String.ofList_toList]

/-! ## Generators -/

/-- A generator that makes, once `t` has been typed behind a head, what it made before as far as it
goes on with `t`. -/
structure Narrows (g : Generator) (head t : String) : Prop where
  /-- The candidates are those that go on with `t`, and the tips stay. -/
  generated : ∀ snapshot tips,
    g (head ++ t) snapshot tips
      = (g head snapshot tips).map fun r => (narrowed t r.1, r.2)
  /-- A candidate that is typed to its end is still offered, with nothing left to insert. -/
  accepted : ∀ snapshot tips r, g head snapshot tips = .ok r → ∀ c ∈ r.1, c.insert = t →
    ∃ r', g (head ++ t) snapshot tips = .ok r' ∧ { c with insert := "" } ∈ r'.1 ∧ r'.2 = r.2

/-- The second part follows from the first. -/
lemma narrows_of_generated {g : Generator} {head t : String}
    (h : ∀ snapshot tips, g (head ++ t) snapshot tips
      = (g head snapshot tips).map fun r => (narrowed t r.1, r.2)) : Narrows g head t := by
  refine ⟨h, fun snapshot tips r hr c hc hinsert => ?_⟩
  subst hinsert
  refine ⟨(narrowed c.insert r.1, r.2), ?_, mem_narrowed_insert hc, rfl⟩
  rw [h, hr]
  rfl

lemma variableCandidates_append (style : Option Style) (head t : String) (snapshot : Snapshot) :
    variableCandidates style (head ++ t) snapshot
      = narrowed t (variableCandidates style head snapshot) :=
  filterMap_matching_append snapshot.globals.toList id (fun _ => style) head t ("$" ++ ·)

lemma commandCandidates_append (style : Option Style) (head t : String) (snapshot : Snapshot) :
    commandCandidates style (head ++ t) snapshot
      = narrowed t (commandCandidates style head snapshot) := by
  rw [commandCandidates, commandCandidates]
  induction CommandSource.all with
  | nil => rfl
  | cons source sources ih =>
      rw [List.flatMap_cons, List.flatMap_cons, narrowed_append, ih]
      exact congrArg (· ++ _) <|
        filterMap_matching_append (source.names snapshot) id (fun _ => source.style style) head t id

lemma fileCandidates_append (styler : Option LsColors) (file t : String) (entries : List Entry) :
    fileCandidates styler (file ++ t) entries = narrowed t (fileCandidates styler file entries) :=
  filterMap_matching_append entries Entry.name _ file t id

/-- The same directory is listed, so the same thing goes wrong or the same entries come. -/
lemma generateFiles_append {t : String} (ht : '/' ∉ t.toList) (list : Lister) (capacity : Nat)
    (styler : Option LsColors) (head : String) (snapshot : Snapshot) (tips : List String) :
    generateFiles list capacity styler (head ++ t) snapshot tips
      = (generateFiles list capacity styler head snapshot tips).map fun r =>
          (narrowed t r.1, r.2) := by
  have hdir : (splitPath (head ++ t)).1 = (splitPath head).1 := by rw [splitPath_append ht]
  have hfile : (splitPath (head ++ t)).2 = (splitPath head).2 ++ t := by rw [splitPath_append ht]
  cases hlist : list (splitPath head).1 with
  | error e =>
      have hlonger : list (splitPath (head ++ t)).1 = .error e := by rw [hdir, hlist]
      rw [generateFiles_of_error snapshot hlonger, generateFiles_of_error snapshot hlist, hdir]
      rfl
  | ok entries =>
      have hlonger : list (splitPath (head ++ t)).1 = .ok entries := by rw [hdir, hlist]
      rw [generateFiles_of_ok snapshot hlonger, generateFiles_of_ok snapshot hlist, hfile]
      cases Channel.create capacity entries with
      | error e => rfl
      | ok channel => simp only [Except.map, fileCandidates_append]

/-- The entries of directories have names without a slash. -/
def Lister.SlashFree (list : Lister) : Prop :=
  ∀ dir entries, list dir = .ok entries → ∀ e ∈ entries, '/' ∉ e.name.toList

/-- What is left to insert of the name of an entry has no slash either. -/
lemma slash_notMem_insert {list : Lister} (hfree : list.SlashFree) {capacity : Nat}
    {styler : Option LsColors} {head : String} {snapshot : Snapshot} {tips : List String}
    {r : Generated} (h : generateFiles list capacity styler head snapshot tips = .ok r)
    {c : Candidate} (hc : c ∈ r.1) : '/' ∉ c.insert.toList := by
  cases hlist : list (splitPath head).1 with
  | error e =>
      rw [generateFiles_of_error snapshot hlist] at h
      obtain rfl := Except.ok.inj h
      exact absurd hc List.not_mem_nil
  | ok entries =>
      rw [generateFiles_of_ok snapshot hlist] at h
      cases hchannel : Channel.create capacity entries with
      | error e =>
          rw [hchannel] at h
          exact absurd h (by simp [Except.map])
      | ok channel =>
          rw [hchannel, Except.map, Channel.drain_create hchannel] at h
          obtain rfl := Except.ok.inj h
          obtain ⟨e, he, hmatch⟩ := List.mem_filterMap.1 hc
          obtain ⟨rest, hrest, rfl⟩ := Option.map_eq_some_iff.1 hmatch
          intro hslash
          refine hfree _ _ hlist e he ?_
          rw [restAfter_eq_some_iff.1 hrest, String.toList_append]
          exact List.mem_append_right _ hslash

/-- **Typing narrows what is offered**: whatever is typed behind a head for variables and commands,
and text without a slash for files, which the names of entries go on with. -/
theorem typing_narrows (head t : String) :
    (∀ style, Narrows (generateVariables style) head t) ∧
    (∀ style, Narrows (generateCommands style) head t) ∧
    ∀ list capacity styler,
      ('/' ∉ t.toList → Narrows (generateFiles list capacity styler) head t) ∧
      (list.SlashFree → ∀ snapshot tips r,
        generateFiles list capacity styler head snapshot tips = .ok r →
          ∀ c ∈ r.1, Narrows (generateFiles list capacity styler) head c.insert) := by
  refine ⟨fun style => narrows_of_generated fun snapshot tips => ?_,
    fun style => narrows_of_generated fun snapshot tips => ?_, fun list capacity styler => ⟨?_, ?_⟩⟩
  · rw [generateVariables, variableCandidates_append]
    rfl
  · rw [generateCommands, commandCandidates_append]
    rfl
  · exact fun ht => narrows_of_generated (generateFiles_append ht list capacity styler head)
  · intro hfree snapshot tips r hr c hc
    exact narrows_of_generated <|
      generateFiles_append (slash_notMem_insert hfree hr hc) list capacity styler head

end LineShell
