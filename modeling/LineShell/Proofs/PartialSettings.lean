import LineShell.Proofs.WrittenSettings
import Mathlib.Data.List.Nodup

/-!
# Documents that give some of the settings

A document may give any of the ten settings, in any order and among other things.  Whether a
setting is found depends on its own section and key alone, and one that is not found keeps its
standard value, so a section that gives none may as well be empty or left out.

* `PartialSettings` — any of the ten settings; `PartialSettings.inPlaceOf` puts them in the place of
  the standard ones.
* `PartialSettings.HeldBy`, `PartialSettings.GivenIn` — a table that holds them, and a document that
  gives them, whatever else there is; `PartialSettings.document` is one.
* `Config.fields?_of_holds` — the values of a section are found.
* `Config.ofTable_congr` — the settings of a table depend on the values that are found in it.
* **`partial_settings_read`** — the settings that are given are read, and the others stay.
-/

namespace LineShell

open Toml (Value Entries Plain)

/-! ## Some of the settings -/

/-- Any of the settings. -/
structure PartialSettings where
  channelCapacity : Option UInt64
  variableStyle : Option String
  commandStyle : Option String
  useLsColors : Option Bool
  colorOutput : Option Bool
  maxSize : Option UInt64
  filePath : Option String
  persist : Option Bool
  level : Option LogLevel
  timestamps : Option Bool

namespace PartialSettings

/-- Standard settings with those that are given in their place. -/
def inPlaceOf (p : PartialSettings) (standard : Config) : Config where
  completion :=
    { channelCapacity := p.channelCapacity.getD standard.completion.channelCapacity
      variableStyle := p.variableStyle.getD standard.completion.variableStyle
      commandStyle := p.commandStyle.getD standard.completion.commandStyle
      useLsColors := p.useLsColors.getD standard.completion.useLsColors }
  display := { colorOutput := p.colorOutput.getD standard.display.colorOutput }
  history :=
    { maxSize := p.maxSize.getD standard.history.maxSize
      filePath := (p.filePath.map Bytes.ofString).getD standard.history.filePath
      persist := p.persist.getD standard.history.persist }
  logging :=
    { level := p.level.getD standard.logging.level
      timestamps := p.timestamps.getD standard.logging.timestamps }

/-- The settings by section and key, with the values that are written for them. -/
def sections (p : PartialSettings) : List (String × List (String × Option Plain)) :=
  [("completion",
      [("channel_capacity", p.channelCapacity.map fun n => .size n.toNat),
        ("variable_style", p.variableStyle.map .string),
        ("command_style", p.commandStyle.map .string),
        ("use_ls_colors", p.useLsColors.map .flag)]),
    ("display", [("color_output", p.colorOutput.map .flag)]),
    ("history",
      [("max_size", p.maxSize.map fun n => .size n.toNat),
        ("file_path", p.filePath.map .string),
        ("persist", p.persist.map .flag)]),
    ("logging",
      [("level", p.level.map fun l => .string l.name),
        ("timestamps", p.timestamps.map .flag)])]

end PartialSettings

/-! ## Tables and documents that hold them -/

namespace Toml

/-- A table holds a section with some of its values.  Without any of them the section may be
missing. -/
inductive Holds (es : Entries) (s : String × List (String × Option Plain)) : Prop
  | absent : lookup? s.1 es = none → (∀ a ∈ s.2, a.2 = none) → Holds es s
  | table {kind : TableKind} {fields : Entries} : lookup? s.1 es = some (.table kind fields) →
      (∀ a ∈ s.2, lookup? a.1 fields = a.2.map Plain.toValue) → Holds es s

/-- A document gives a section with some of its values. -/
inductive Gives (ss : List (String × List (String × Plain)))
    (s : String × List (String × Option Plain)) : Prop
  | absent : s.1 ∉ ss.map Prod.fst → (∀ a ∈ s.2, a.2 = none) → Gives ss s
  | lines {as : List (String × Plain)} : (s.1, as) ∈ ss →
      (∀ a ∈ s.2, ∀ v, (a.1, v) ∈ as ↔ a.2 = some v) → Gives ss s

/-- Nothing is found in a section under some keys. -/
inductive Silent (es : Entries) (name : String) (keys : List String) : Prop
  | absent : lookup? name es = none → Silent es name keys
  | table {kind : TableKind} {fields : Entries} : lookup? name es = some (.table kind fields) →
      (∀ key ∈ keys, lookup? key fields = none) → Silent es name keys

variable {es : Entries} {ss : List (String × List (String × Plain))}
  {s : String × List (String × Option Plain)} {key : String}

lemma mem_of_lookup? {v : Value} (h : lookup? key es = some v) : (key, v) ∈ es := by
  obtain ⟨front, back, hes, -⟩ := List.lookup_eq_some_iff.1 h
  simp [hes]

lemma lookup?_of_not_mem (h : key ∉ es.map Prod.fst) : lookup? key es = none := by
  rw [lookup?, List.lookup_eq_none_iff]
  intro e he
  have hne : key ≠ e.1 := fun heq => h (List.mem_map.2 ⟨e, he, heq.symm⟩)
  simpa using hne

/-- What is found under a key of a section is what the document gives it. -/
lemma lookup?_entriesOf {as : List (String × Plain)} (hnodup : (as.map Prod.fst).Nodup)
    {o : Option Plain} (h : ∀ v, (key, v) ∈ as ↔ o = some v) :
    lookup? key (entriesOf as) = o.map Plain.toValue := by
  cases o with
  | none =>
      refine lookup?_of_not_mem ?_
      simpa [entriesOf] using h
  | some v =>
      have hmem : (key, v.toValue) ∈ entriesOf as := List.mem_map.2 ⟨(key, v), (h v).2 rfl, rfl⟩
      exact lookup?_of_mem (by simpa [entriesOf, Function.comp_def] using hnodup) hmem

/-- A document whose names are given once makes a table that holds what it gives. -/
lemma Gives.holds (hwell : WellNamed ss) (h : Gives ss s) : Holds (tableOf ss) s := by
  cases h with
  | absent hname hnone =>
      refine .absent (lookup?_of_not_mem ?_) hnone
      simpa [tableOf, Function.comp_def] using hname
  | lines hmem hvalues =>
      refine .table (lookup?_tableOf hwell hmem) ?_
      intro a ha
      exact lookup?_entriesOf (hwell.nodup_keys _ hmem) (hvalues a ha)

/-- A text stands for a table, and all numbers in it are of a size that a value can have. -/
structure Decodes (text : String) (es : Entries) : Prop where
  read : read text.toList = some es
  readable : entriesReadable es = true

/-- All numbers in a document are of a size that a value can have. -/
def SizesReadable (ss : List (String × List (String × Plain))) : Prop :=
  ∀ s ∈ ss, ∀ a ∈ s.2, a.2.toValue.isReadable = true

lemma SizesReadable.entriesReadable (h : SizesReadable ss) :
    entriesReadable (tableOf ss) = true := by
  simp only [entriesReadable_iff, tableOf, List.forall_mem_map, Value.isReadable, entriesOf]
  exact h

/-- A document that is written decodes to the table that is meant. -/
lemma decodes_writeSections (hwell : WellNamed ss) (hsizes : SizesReadable ss) :
    Decodes (String.ofList (writeSections ss)) (tableOf ss) where
  read := by
    rw [String.toList_ofList]
    exact read_writeSections hwell
  readable := hsizes.entriesReadable

/-- What can be read as a whole can be read in each table. -/
lemma entriesReadable_of_lookup? {kind : TableKind} {fields : Entries}
    (hread : entriesReadable es = true) (h : lookup? key es = some (.table kind fields)) :
    entriesReadable fields = true := by
  have hvalue := entriesReadable_iff.1 hread _ (mem_of_lookup? h)
  simpa [Value.isReadable] using hvalue

end Toml

/-! ## Finding them -/

namespace Config

variable {es es' : Entries}

/-- The values of a section that a table holds are found. -/
lemma fields?_of_holds {s : String × List (String × Option Plain)}
    (hread : Toml.entriesReadable es = true) (h : Toml.Holds es s) :
    fields? (s.2.map Prod.fst) (Toml.lookup? s.1 es)
      = some (s.2.map fun a => a.2.map Plain.toValue) := by
  cases h with
  | absent hname hnone =>
      rw [hname, fields?, List.map_map]
      refine congrArg some (List.map_congr_left ?_)
      intro a ha
      simp [hnone a ha]
  | table hname hvalues =>
      rw [hname, fields?, Toml.entriesReadable_of_lookup? hread hname, List.map_map]
      refine congrArg some (List.map_congr_left ?_)
      intro a ha
      exact hvalues a ha

/-- In a section without settings nothing is found, as where it is not there. -/
lemma fields?_of_silent {name : String} {keys : List String}
    (hread : Toml.entriesReadable es = true) (h : Toml.Silent es name keys) :
    fields? keys (Toml.lookup? name es) = fields? keys none := by
  cases h with
  | absent hname => rw [hname]
  | table hname hvalues =>
      simp only [hname, fields?, Toml.entriesReadable_of_lookup? hread hname]
      exact congrArg some (List.map_congr_left hvalues)

/-- The sections with the keys that are looked for in them. -/
def knownSections : List (String × List String) :=
  [("completion", completionKeys), ("display", displayKeys), ("history", historyKeys),
    ("logging", loggingKeys)]

/-- What can be read as a whole can be read without the sections. -/
lemma guard_others (h : Toml.entriesReadable es = true) :
    guard (Toml.entriesReadable (es.filter fun e => !sectionKeys.contains e.1) = true)
      = some () := by
  refine if_pos ?_
  rw [Toml.entriesReadable_iff] at h ⊢
  intro e he
  exact h e (List.mem_filter.1 he).1

/-- The settings of a table depend on nothing but the values that are found in it. -/
lemma ofTable_congr (standard : Config) (hread : Toml.entriesReadable es = true)
    (hread' : Toml.entriesReadable es' = true)
    (h : ∀ s ∈ knownSections,
      fields? s.2 (Toml.lookup? s.1 es) = fields? s.2 (Toml.lookup? s.1 es')) :
    ofTable standard es = ofTable standard es' := by
  simp only [knownSections, List.forall_mem_cons] at h
  obtain ⟨hcompletion, hdisplay, hhistory, hlogging, -⟩ := h
  rw [ofTable, ofTable, guard_others hread, guard_others hread', hcompletion, hdisplay, hhistory,
    hlogging]

/-- A setting is read where it is given. -/
lemma setting_map {α : Type} {decode : Value → Option α} (write : α → Plain)
    (h : ∀ x, decode (write x).toValue = some x) (standard : α) (o : Option α) :
    setting decode standard ((o.map write).map Plain.toValue) = some (o.getD standard) := by
  cases o with
  | none => rfl
  | some x => exact h x

section given

variable {capacity size : Option UInt64} {style style' path : Option String}
  {flag : Option Bool} {level : Option LogLevel}

lemma completionOf_given (standard : CompletionConfig) :
    completionOf standard [(capacity.map fun n => .size n.toNat).map Plain.toValue,
        (style.map .string).map Plain.toValue, (style'.map .string).map Plain.toValue,
        (flag.map .flag).map Plain.toValue]
      = some ⟨capacity.getD standard.channelCapacity, style.getD standard.variableStyle,
          style'.getD standard.commandStyle, flag.getD standard.useLsColors⟩ := by
  rw [completionOf, setting_map _ decodeSize_toNat, setting_map .string fun _ => rfl,
    setting_map .string fun _ => rfl, setting_map .flag fun _ => rfl]
  rfl

lemma displayOf_given (standard : DisplayConfig) :
    displayOf standard [(flag.map .flag).map Plain.toValue]
      = some ⟨flag.getD standard.colorOutput⟩ := by
  rw [displayOf, setting_map .flag fun _ => rfl]
  rfl

lemma historyOf_given (standard : HistoryConfig) :
    historyOf standard [(size.map fun n => .size n.toNat).map Plain.toValue,
        (path.map .string).map Plain.toValue, (flag.map .flag).map Plain.toValue]
      = some ⟨size.getD standard.maxSize, (path.map Bytes.ofString).getD standard.filePath,
          flag.getD standard.persist⟩ := by
  have hpath : setting (fun v => (decodeString v).map Bytes.ofString) standard.filePath
      ((path.map .string).map Plain.toValue)
        = some ((path.map Bytes.ofString).getD standard.filePath) := by
    cases path <;> rfl
  rw [historyOf, setting_map _ decodeSize_toNat, hpath, setting_map .flag fun _ => rfl]
  rfl

lemma loggingOf_given (standard : LoggingConfig) :
    loggingOf standard [(level.map fun l => .string l.name).map Plain.toValue,
        (flag.map .flag).map Plain.toValue]
      = some ⟨level.getD standard.level, flag.getD standard.timestamps⟩ := by
  rw [loggingOf, setting_map _ decodeLevel_name, setting_map .flag fun _ => rfl]
  rfl

end given

end Config

namespace PartialSettings

variable {p : PartialSettings} {standard : Config} {es : Entries} {text : String}
  {ss : List (String × List (String × Plain))}

/-- A table holds these settings and none of the others, whatever else is in it. -/
def HeldBy (p : PartialSettings) (es : Entries) : Prop :=
  ∀ s ∈ p.sections, Toml.Holds es s

/-- A document gives these settings and none of the others, in any order and whatever else it
gives. -/
def GivenIn (p : PartialSettings) (ss : List (String × List (String × Plain))) : Prop :=
  ∀ s ∈ p.sections, Toml.Gives ss s

lemma GivenIn.heldBy (hwell : Toml.WellNamed ss) (h : p.GivenIn ss) :
    p.HeldBy (Toml.tableOf ss) := by
  intro s hs
  exact (h s hs).holds hwell

/-- The settings that a table holds are read from it, and the others stay. -/
lemma ofTable_of_heldBy (hread : Toml.entriesReadable es = true) (h : p.HeldBy es) :
    Config.ofTable standard es = some (p.inPlaceOf standard) := by
  have hfields : ∀ s ∈ p.sections, _ := fun s hs => Config.fields?_of_holds hread (h s hs)
  simp only [sections, List.forall_mem_cons] at hfields
  obtain ⟨hcompletion, hdisplay, hhistory, hlogging, -⟩ := hfields
  -- The keys of each section are those that are looked for.
  change Config.fields? Config.completionKeys (Toml.lookup? "completion" _) = _ at hcompletion
  change Config.fields? Config.displayKeys (Toml.lookup? "display" _) = _ at hdisplay
  change Config.fields? Config.historyKeys (Toml.lookup? "history" _) = _ at hhistory
  change Config.fields? Config.loggingKeys (Toml.lookup? "logging" _) = _ at hlogging
  rw [Config.ofTable, Config.guard_others hread, hcompletion, hdisplay, hhistory, hlogging]
  simp only [Option.bind_eq_bind, Option.bind_some, Option.pure_def, List.map_cons, List.map_nil,
    Config.completionOf_given, Config.displayOf_given, Config.historyOf_given,
    Config.loggingOf_given]
  rfl

/-! ## A document for all of them -/

/-- The sections with the settings that are given. -/
def document (p : PartialSettings) : List (String × List (String × Plain)) :=
  p.sections.map fun s => (s.1, s.2.filterMap fun a => a.2.map fun v => (a.1, v))

/-- The names of the settings are bare, and each is given once. -/
lemma wellNamed_sections (p : PartialSettings) :
    (∀ s ∈ p.sections, Toml.IsBare s.1.toList) ∧ (p.sections.map Prod.fst).Nodup ∧
      (∀ s ∈ p.sections, ∀ a ∈ s.2, Toml.IsBare a.1.toList) ∧
      ∀ s ∈ p.sections, (s.2.map Prod.fst).Nodup := by
  refine ⟨?_, by simp [sections], ?_, by simp [sections]⟩
  · simp only [sections, List.forall_mem_cons]
    decide
  · simp only [sections, List.forall_mem_cons]
    decide

lemma mem_givenOf {as : List (String × Option Plain)} {key : String} {v : Plain} :
    (key, v) ∈ (as.filterMap fun a => a.2.map fun v => (a.1, v)) ↔ (key, some v) ∈ as := by
  simp only [List.mem_filterMap, Option.map_eq_some_iff, Prod.mk.injEq]
  constructor
  · rintro ⟨⟨key', o⟩, ha, v', rfl, rfl, rfl⟩
    exact ha
  · intro ha
    exact ⟨_, ha, v, rfl, rfl, rfl⟩

lemma keys_givenOf_sublist (as : List (String × Option Plain)) :
    ((as.filterMap fun a => a.2.map fun v => (a.1, v)).map Prod.fst).Sublist
      (as.map Prod.fst) := by
  induction as with
  | nil => simp
  | cons a as ih =>
      obtain ⟨key, o⟩ := a
      cases o with
      | none => simpa using ih.cons key
      | some v => simpa using ih.cons_cons key

lemma wellNamed_document (p : PartialSettings) : Toml.WellNamed p.document := by
  obtain ⟨hsections, hnodup, hkeys, hnodupKeys⟩ := p.wellNamed_sections
  refine ⟨?_, ?_, ?_, ?_⟩
  · simpa only [document, List.forall_mem_map] using hsections
  · simpa [document, Function.comp_def] using hnodup
  · simp only [document, List.forall_mem_map]
    rintro s hs ⟨key, v⟩ ha
    exact hkeys s hs _ (mem_givenOf.1 ha)
  · simp only [document, List.forall_mem_map]
    intro s hs
    exact (hnodupKeys s hs).sublist (keys_givenOf_sublist s.2)

lemma givenIn_document (p : PartialSettings) : p.GivenIn p.document := by
  intro s hs
  refine .lines (List.mem_map_of_mem hs) ?_
  rintro ⟨key, o⟩ ha v
  rw [mem_givenOf]
  constructor
  · intro hv
    have hnodup := p.wellNamed_sections.2.2.2 s hs
    have hsame := List.inj_on_of_nodup_map hnodup ha hv rfl
    exact congrArg Prod.snd hsame
  · rintro rfl
    exact ha

lemma sizesReadable_document (p : PartialSettings) : Toml.SizesReadable p.document := by
  have hsize : ∀ n : UInt64, (Plain.size n.toNat).toValue.isReadable = true :=
    Config.isReadableInteger_toNat
  have hstring : ∀ text, (Plain.string text).toValue.isReadable = true := fun _ => rfl
  have hflag : ∀ b, (Plain.flag b).toValue.isReadable = true := fun _ => rfl
  have hall : ∀ s ∈ p.sections, ∀ a ∈ s.2, ∀ v ∈ a.2, v.toValue.isReadable = true := by
    simp only [sections, List.forall_mem_cons, Option.mem_def, Option.map_eq_some_iff,
      forall_exists_index, and_imp, forall_apply_eq_imp_iff₂, hsize, hstring, hflag]
    simp
  simp only [Toml.SizesReadable, document, List.forall_mem_map]
  rintro s hs ⟨key, v⟩ ha
  exact hall s hs _ (mem_givenOf.1 ha) v rfl

/-- What is made of documents that give these settings and none of the others. -/
structure ReadWith (p : PartialSettings) (standard : Config) : Prop where
  /-- However the tables are written, and whatever else is in them. -/
  read : ∀ text es, Toml.Decodes text es → p.HeldBy es →
    Config.ofToml standard text = .ok (p.inPlaceOf standard)
  /-- In particular as sections of lines, in any order and with others among them. -/
  written : ∀ ss, Toml.WellNamed ss → Toml.SizesReadable ss → p.GivenIn ss →
    Config.ofToml standard (String.ofList (Toml.writeSections ss)) = .ok (p.inPlaceOf standard)
  writable : ∃ ss, Toml.WellNamed ss ∧ Toml.SizesReadable ss ∧ p.GivenIn ss
  /-- A section without settings may be left out, be empty or hold other keys. -/
  silent : ∀ text text' es es', Toml.Decodes text es → Toml.Decodes text' es' →
    (∀ s ∈ Config.knownSections, Toml.lookup? s.1 es = Toml.lookup? s.1 es' ∨
      Toml.Silent es s.1 s.2 ∧ Toml.Silent es' s.1 s.2) →
    Config.ofToml standard text = Config.ofToml standard text'

end PartialSettings

/-- **The settings that a document gives are read, and all others keep their standard values.** -/
theorem partial_settings_read (p : PartialSettings) (standard : Config) :
    p.ReadWith standard := by
  have hread : ∀ text es, Toml.Decodes text es → p.HeldBy es →
      Config.ofToml standard text = .ok (p.inPlaceOf standard) := by
    intro text es htext hheld
    exact Config.ofToml_of_read htext.read
      (PartialSettings.ofTable_of_heldBy htext.readable hheld)
  refine ⟨hread, ?_, ?_, ?_⟩
  · intro ss hwell hsizes hgiven
    exact hread _ _ (Toml.decodes_writeSections hwell hsizes) (hgiven.heldBy hwell)
  · exact ⟨_, p.wellNamed_document, p.sizesReadable_document, p.givenIn_document⟩
  · intro text text' es es' htext htext' hsections
    have htable : Config.ofTable standard es = Config.ofTable standard es' := by
      refine Config.ofTable_congr standard htext.readable htext'.readable ?_
      intro s hs
      rcases hsections s hs with hsame | ⟨hsilent, hsilent'⟩
      · rw [hsame]
      · rw [Config.fields?_of_silent htext.readable hsilent,
          Config.fields?_of_silent htext'.readable hsilent']
    simp only [Config.ofToml, htext.read, htext'.read, htable]

end LineShell
