import LineShell.Proofs.Offers

/-!
# Settings only paint

What is offered does not depend on the settings.  Under all of them it is, but for the styles, what
it is under plain ones, with no style at all and the smallest channel there is: each generator makes
the same names in the same order, and a channel of any capacity hands on all that it is given.  The
other way round, styles come from the settings alone, so they go with the colours.

* `Candidate.unstyled`, `Outcome.unstyled` — a candidate and an outcome without styles.
* `Settings.plain` — the settings that paint nothing.
* `complete_unstyled` — a request under any settings, compared with the same request under those.
* `Settings.Paints`, `paints_of_complete` — where the style of a candidate comes from.
* **`settings_only_paint`** — under two configurations outcomes differ in nothing but styles.
-/

namespace LineShell

/-! ## Without styles -/

def Candidate.unstyled (c : Candidate) : Candidate :=
  { c with style := none }

/-- The same outcome, with none of the styles of its candidates. -/
def Outcome.unstyled (o : Outcome) : Outcome :=
  { o with candidates := o.candidates.map Candidate.unstyled }

def Generated.unstyled (g : Generated) : Generated :=
  (g.1.map Candidate.unstyled, g.2)

/-- The settings that paint nothing, with the smallest channel there is. -/
def Settings.plain : Settings :=
  ⟨1, none, none, none⟩

lemma map_unstyled_filterMap_matching {α : Type} (xs : List α) (name : α → String) (part : String)
    (shown : String → String) (style : α → Option Style) :
    (xs.filterMap fun x => Candidate.matching (name x) part shown (style x)).map Candidate.unstyled
      = xs.filterMap fun x => Candidate.matching (name x) part shown none := by
  rw [List.map_filterMap]
  refine List.filterMap_congr fun x _ => ?_
  rw [Candidate.matching, Candidate.matching, Option.map_map]
  rfl

lemma map_unstyled_variableCandidates (style : Option Style) (head : String)
    (snapshot : Snapshot) :
    (variableCandidates style head snapshot).map Candidate.unstyled
      = variableCandidates none head snapshot :=
  map_unstyled_filterMap_matching _ _ _ _ _

lemma map_unstyled_commandCandidates (style : Option Style) (head : String)
    (snapshot : Snapshot) :
    (commandCandidates style head snapshot).map Candidate.unstyled
      = commandCandidates none head snapshot := by
  rw [commandCandidates, commandCandidates, List.map_flatMap]
  refine List.flatMap_congr fun source _ => ?_
  rw [map_unstyled_filterMap_matching]
  cases source <;> rfl

lemma map_unstyled_fileCandidates (styler : Option LsColors) (file : String)
    (entries : List Entry) :
    (fileCandidates styler file entries).map Candidate.unstyled
      = fileCandidates none file entries :=
  map_unstyled_filterMap_matching _ _ _ _ _

section request

variable {s : Settings} {list : Lister} {line : String} {pos : Nat} {snapshot : Snapshot}

/-- The capacity of the channel and the styles for entries make no difference to the entries. -/
lemma generateFiles_unstyled {capacity : Nat} (hcapacity : capacity ≤ Channel.maxCapacity)
    (list : Lister) (styler : Option LsColors) (head : String) (snapshot : Snapshot)
    (tips : List String) :
    (generateFiles list capacity styler head snapshot tips).map Generated.unstyled
      = generateFiles list 1 none head snapshot tips := by
  cases hlist : list (splitPath head).1 with
  | error e =>
      rw [generateFiles_of_error snapshot hlist, generateFiles_of_error snapshot hlist]
      rfl
  | ok entries =>
      obtain ⟨ch, hch⟩ := Channel.exists_create_eq_ok hcapacity entries
      obtain ⟨small, hsmall⟩ :=
        Channel.exists_create_eq_ok (show 1 ≤ Channel.maxCapacity by decide) entries
      rw [generateFiles_of_ok snapshot hlist, generateFiles_of_ok snapshot hlist, hch, hsmall,
        Except.map, Except.map, Except.map, Channel.drain_create hch, Channel.drain_create hsmall,
        Generated.unstyled, map_unstyled_fileCandidates]

/-- Every generator of the shell makes what it makes under plain settings, in its styles. -/
lemma generate_unstyled (hcapacity : s.channelCapacity ≤ Channel.maxCapacity) (list : Lister)
    (k : ContextKind) (head : String) (snapshot : Snapshot) (tips : List String) :
    ((standardCompleter s list k).generate head snapshot tips).map Generated.unstyled
      = (standardCompleter .plain list k).generate head snapshot tips := by
  cases k with
  | reference =>
      exact congrArg (fun cs => Except.ok (cs, tips))
        (map_unstyled_variableCandidates s.variableStyle head snapshot)
  | newCommand | commandHead =>
      exact congrArg (fun cs => Except.ok (cs, tips))
        (map_unstyled_commandCandidates s.commandStyle head snapshot)
  | newArgument | argument =>
      exact generateFiles_unstyled hcapacity list s.styler head snapshot tips

/-- A request comes to what it comes to under plain settings, in the styles of its own. -/
lemma complete_unstyled (hcapacity : s.channelCapacity ≤ Channel.maxCapacity) (list : Lister)
    (line : String) (pos : Nat) (snapshot : Snapshot) :
    (complete (standardCompleters s list) line pos snapshot).map Outcome.unstyled
      = complete (standardCompleters .plain list) line pos snapshot := by
  cases hkind : (cursorNode line pos).contextKind? with
  | none =>
      rw [complete_of_none hkind, complete_of_none hkind]
      rfl
  | some k =>
      obtain ⟨ctx, hctx⟩ := Option.isSome_iff_exists.1 (isSome_classify_iff.2 hkind)
      have hname : (standardCompleter s list k).name = (standardCompleter .plain list k).name := by
        cases k <;> rfl
      rw [complete_of_classify hctx, complete_of_classify hctx, hname,
        ← generate_unstyled hcapacity list k]
      cases (standardCompleter s list k).generate ctx.head snapshot [] with
      | error e => rfl
      | ok g =>
          by_cases hnil : g.1 = [] <;>
            simp [Except.map, Generated.unstyled, hnil, Outcome.nothing, Outcome.unstyled]

/-! ## Where styles come from -/

/-- The styles that settings have for the candidates of a place: programs have one among the
commands, and each entry of a directory may have its own. -/
def Settings.Paints (s : Settings) : ContextKind → Option Style → Prop
  | .reference, style => style = s.variableStyle
  | .newCommand, style | .commandHead, style => style = none ∨ style = s.commandStyle
  | .newArgument, style | .argument, style => ∃ e, style = s.styler.bind (·.styleFor e)

lemma style_of_matching {name part : String} {shown : String → String} {style : Option Style}
    {c : Candidate} (h : Candidate.matching name part shown style = some c) : c.style = style := by
  obtain ⟨rest, -, rfl⟩ := Option.map_eq_some_iff.1 h
  rfl

lemma paints_of_generate {k : ContextKind} {head : String} {tips : List String} {g : Generated}
    (h : (standardCompleter s list k).generate head snapshot tips = .ok g) {c : Candidate}
    (hc : c ∈ g.1) : s.Paints k c.style := by
  cases k with
  | reference =>
      obtain rfl := Except.ok.inj h
      obtain ⟨name, -, hmatch⟩ := List.mem_filterMap.1 hc
      exact style_of_matching hmatch
  | newCommand | commandHead =>
      obtain rfl := Except.ok.inj h
      obtain ⟨source, -, hsource⟩ := List.mem_flatMap.1 hc
      obtain ⟨name, -, hmatch⟩ := List.mem_filterMap.1 hsource
      have hstyle := style_of_matching hmatch
      cases source with
      | special | function => exact .inl hstyle
      | external => exact .inr hstyle
  | newArgument | argument =>
      rcases generateFiles_cases snapshot h with ⟨e, -, rfl⟩ | ⟨received, rfl⟩
      · exact absurd hc List.not_mem_nil
      · obtain ⟨e, -, hmatch⟩ := List.mem_filterMap.1 hc
        exact ⟨e, style_of_matching hmatch⟩

/-- A candidate has a style that the settings have for the place, if the place has a context. -/
lemma paints_of_complete {o : Outcome}
    (h : complete (standardCompleters s list) line pos snapshot = .ok o) {c : Candidate}
    (hc : c ∈ o.candidates) :
    ∃ k ctx, k.classify (cursorNode line pos) = some ctx ∧ s.Paints k c.style := by
  rcases outcome_cases h with rfl | ⟨k, ctx, g, hctx, hg, rfl⟩
  · exact absurd hc List.not_mem_nil
  · refine ⟨k, ctx, hctx, paints_of_generate hg ?_⟩
    by_cases hnil : g.1 = []
    · rw [if_pos hnil] at hc
      exact absurd hc List.not_mem_nil
    · rwa [if_neg hnil] at hc

end request

/-! ## Configurations -/

section config

variable {c : Config} {lsColors : Option String} {k : ContextKind} {style : Option Style}

lemma eq_none_of_colorless (hcolor : c.display.colorOutput = false)
    (h : (Settings.ofConfig c lsColors).Paints k style) : style = none := by
  cases k with
  | reference => simpa [Settings.Paints, Settings.ofConfig, hcolor] using h
  | newCommand | commandHead => simpa [Settings.Paints, Settings.ofConfig, hcolor] using h
  | newArgument | argument =>
      obtain ⟨e, rfl⟩ := h
      simp [Settings.ofConfig, hcolor]

lemma eq_none_of_path (hls : c.completion.useLsColors = false) {head path : String}
    (hwanted : k.wanted head = .path path)
    (h : (Settings.ofConfig c lsColors).Paints k style) : style = none := by
  cases k with
  | reference | newCommand | commandHead => exact absurd hwanted (by simp [ContextKind.wanted])
  | newArgument | argument =>
      obtain ⟨e, rfl⟩ := h
      simp [Settings.ofConfig, hls]

end config

/-- What settings do to a request: they paint what is offered, and only where they are to. -/
structure OnlyPainted (list : Lister) (line : String) (pos : Nat) (snapshot : Snapshot) :
    Prop where
  /-- Any two configurations with channels that can be made have the same outcome but for styles. -/
  alike : ∀ (c c' : Config) (lsColors lsColors' : Option String),
    c.completion.channelCapacity.toNat ≤ Channel.maxCapacity →
    c'.completion.channelCapacity.toNat ≤ Channel.maxCapacity →
    ∃ o o', complete (standardCompleters (.ofConfig c lsColors) list) line pos snapshot = .ok o ∧
      complete (standardCompleters (.ofConfig c' lsColors') list) line pos snapshot = .ok o' ∧
      o.unstyled = o'.unstyled
  /-- Without colours nothing is styled, whatever the other settings are. -/
  colorless : ∀ (c : Config) (lsColors : Option String) (o : Outcome),
    complete (standardCompleters (.ofConfig c lsColors) list) line pos snapshot = .ok o →
    c.display.colorOutput = false → ∀ a ∈ o.candidates, a.style = none
  /-- Without the table for file names, nothing is styled where a path is wanted. -/
  files : ∀ (c : Config) (lsColors : Option String) (o : Outcome),
    complete (standardCompleters (.ofConfig c lsColors) list) line pos snapshot = .ok o →
    c.completion.useLsColors = false →
    ∀ head, (parse line.toList).Wants (cursorNode line pos) (.path head) →
      ∀ a ∈ o.candidates, a.style = none

/-- **Settings only paint**: whatever the configurations, the outcomes of a request agree in all but
the styles of their candidates. -/
theorem settings_only_paint (list : Lister) (line : String) (pos : Nat) (snapshot : Snapshot) :
    OnlyPainted list line pos snapshot := by
  refine ⟨?_, ?_, ?_⟩
  · intro c c' lsColors lsColors' hc hc'
    have hserved := fun s => servedOnce s line pos snapshot
    obtain ⟨o, ho⟩ := (hserved (.ofConfig c lsColors)).answered hc list
    obtain ⟨o', ho'⟩ := (hserved (.ofConfig c' lsColors')).answered hc' list
    have hplain := complete_unstyled (s := .ofConfig c lsColors) hc list line pos snapshot
    have hplain' := complete_unstyled (s := .ofConfig c' lsColors') hc' list line pos snapshot
    rw [ho] at hplain
    rw [ho'] at hplain'
    exact ⟨o, o', ho, ho', Except.ok.inj (hplain.trans hplain'.symm)⟩
  · intro c lsColors o ho hcolor a ha
    obtain ⟨k, ctx, -, hpaints⟩ := paints_of_complete ho ha
    exact eq_none_of_colorless hcolor hpaints
  · intro c lsColors o ho hls head hwants a ha
    obtain ⟨k, ctx, hctx, hpaints⟩ := paints_of_complete ho ha
    obtain ⟨k', ctx', hctx', hwanted⟩ := (Chunk.wants_iff (cursorNode_mem_nodes line pos)).1 hwants
    obtain rfl := eq_of_classify hctx hctx'
    exact eq_none_of_path hls hwanted hpaints

end LineShell
