import LineShell.Config.Toml
import LineShell.Proofs.WrittenDocuments

/-!
# Settings that are written

All settings are written, each under the name that it is looked up by, so nothing is left to the
standard values when they are read.  Only a path that is no text has no written form.

* `wellNamed_sections` — the names of the settings are bare, and each is given once.
* `Config.ofTable_tableOf` — the settings are found in the table again.
* **`settings_come_back`** — the round trip of all settings, and when there is none.
-/

namespace LineShell

open Toml (Value Entries Plain)

namespace Config

/-- The names of the settings are bare, and each is given once. -/
lemma wellNamed_sections (c : Config) (path : String) : Toml.WellNamed (c.sections path) where
  sections := by
    simp only [sections, List.forall_mem_cons]
    decide
  nodup := by simp [sections]
  keys := by
    simp only [sections, List.forall_mem_cons]
    decide
  nodup_keys := by
    simp [sections]

/-! ## The values -/

lemma decodeSize_toNat (n : UInt64) : decodeSize (.integer n.toNat) = some n := by
  show (if n.toNat < UInt64.size then some (UInt64.ofNat n.toNat) else none) = some n
  rw [if_pos n.toNat_lt, UInt64.ofNat_toNat]

lemma isReadableInteger_toNat (n : UInt64) : Toml.isReadableInteger n.toNat = true := by
  have hpow : ∀ k, Int.pow 2 k = 2 ^ k := fun _ => rfl
  have hlt : n.toNat < 2 ^ 64 := n.toNat_lt
  rw [Toml.isReadableInteger, hpow, hpow, Bool.and_eq_true, decide_eq_true_eq, decide_eq_true_eq]
  omega

lemma decodeLevel_name (l : LogLevel) : decodeLevel (.string l.name) = some l := by
  cases l <;> rfl

/-! ## The sections -/

section sections

variable {c : Config} {path : String} {s : String × List (String × Plain)}

/-- No number in a section is too large to be read. -/
lemma entriesReadable_of_mem (hs : s ∈ c.sections path) :
    Toml.entriesReadable (Toml.entriesOf s.2) = true := by
  rw [Toml.entriesReadable_iff]
  simp only [Toml.entriesOf, List.forall_mem_map]
  revert s
  simp only [sections, List.forall_mem_cons]
  have hcapacity := isReadableInteger_toNat c.completion.channelCapacity
  have hsize := isReadableInteger_toNat c.history.maxSize
  simp [Plain.toValue, Value.isReadable, hcapacity, hsize]

/-- The values of a section are found under its name and theirs. -/
lemma fields?_of_mem (hs : s ∈ c.sections path) :
    fields? (s.2.map Prod.fst) (Toml.lookup? s.1 (Toml.tableOf (c.sections path)))
      = some (s.2.map fun a => some a.2.toValue) := by
  have hwell := wellNamed_sections c path
  rw [Toml.lookup?_tableOf hwell hs, fields?, entriesReadable_of_mem hs,
    Toml.map_lookup?_entriesOf (hwell.nodup_keys s hs)]
  rfl

end sections

/-- The settings are found in the table that they were written as. -/
lemma ofTable_tableOf {c : Config} {path : String} (hpath : c.history.filePath = .ofString path)
    (standard : Config) : ofTable standard (Toml.tableOf (c.sections path)) = some c := by
  have hfields : ∀ s ∈ c.sections path,
      fields? (s.2.map Prod.fst) (Toml.lookup? s.1 (Toml.tableOf (c.sections path)))
        = some (s.2.map fun a => some a.2.toValue) := fun s hs => fields?_of_mem hs
  obtain ⟨hcompletion, hfields⟩ := List.forall_mem_cons.1 hfields
  obtain ⟨hdisplay, hfields⟩ := List.forall_mem_cons.1 hfields
  obtain ⟨hhistory, hfields⟩ := List.forall_mem_cons.1 hfields
  obtain ⟨hlogging, -⟩ := List.forall_mem_cons.1 hfields
  -- The keys of each section are those that are looked for.
  change fields? completionKeys (Toml.lookup? "completion" _) = _ at hcompletion
  change fields? displayKeys (Toml.lookup? "display" _) = _ at hdisplay
  change fields? historyKeys (Toml.lookup? "history" _) = _ at hhistory
  change fields? loggingKeys (Toml.lookup? "logging" _) = _ at hlogging
  have hothers : (Toml.tableOf (c.sections path)).filter
      (fun e => !sectionKeys.contains e.1) = [] := rfl
  have hguard : guard (Toml.entriesReadable [] = true) = some () := rfl
  rw [ofTable, hothers, hguard, hcompletion, hdisplay, hhistory, hlogging]
  simp [completionOf, displayOf, historyOf, loggingOf, setting, Plain.toValue, decodeSize_toNat,
    decodeLevel_name, decodeString, decodeFlag, ← hpath]

/-! ## The round trip -/

lemma toToml_of_bytes {c : Config} {path : String} (h : c.history.filePath = .ofString path) :
    c.toToml = .ok (String.ofList (Toml.writeSections (c.sections path))) := by
  rw [toToml, Bytes.text?_eq_some_iff.2 h]

lemma toToml_of_no_text {c : Config} (h : ¬ ∃ path, c.history.filePath = .ofString path) :
    c.toToml = .error (.invalidFormat "path contains invalid UTF-8 characters") := by
  have hnone : c.history.filePath.text? = none := by
    rw [Option.eq_none_iff_forall_ne_some]
    intro path hpath
    exact h ⟨path, Bytes.text?_eq_some_iff.1 hpath⟩
  rw [toToml, hnone]

lemma ofToml_of_read {standard c : Config} {text : String} {es : Entries}
    (hread : Toml.read text.toList = some es) (htable : ofTable standard es = some c) :
    ofToml standard text = .ok c := by
  simp only [ofToml, hread, htable]

lemma ofToml_written {c : Config} {path : String} (h : c.history.filePath = .ofString path)
    (standard : Config) :
    ofToml standard (String.ofList (Toml.writeSections (c.sections path))) = .ok c := by
  refine ofToml_of_read ?_ (ofTable_tableOf h standard)
  rw [String.toList_ofList]
  exact Toml.read_writeSections (wellNamed_sections c path)

/-- Reading undoes writing, which fails only for want of a text. -/
structure ComesBack (c : Config) : Prop where
  written_iff : (∃ text, c.toToml = .ok text) ↔ ∃ path, c.history.filePath = .ofString path
  refused_iff : ∀ e, c.toToml = .error e ↔
    (¬ ∃ path, c.history.filePath = .ofString path) ∧
      e = .invalidFormat "path contains invalid UTF-8 characters"
  /-- Nothing is taken from the standard settings. -/
  read : ∀ text, c.toToml = .ok text → ∀ standard, ofToml standard text = .ok c

end Config

/-- **Settings come back from the text that they are written as**, and all have one but those whose
path of the history is no text. -/
theorem settings_come_back (c : Config) : c.ComesBack := by
  by_cases h : ∃ path, c.history.filePath = .ofString path
  · obtain ⟨path, hpath⟩ := h
    have hwritten := Config.toToml_of_bytes hpath
    refine ⟨iff_of_true ⟨_, hwritten⟩ ⟨path, hpath⟩, fun e => ?_, ?_⟩
    · simp [hwritten, hpath]
    · rintro text htext standard
      obtain rfl := Except.ok.inj (hwritten.symm.trans htext)
      exact Config.ofToml_written hpath standard
  · have hrefused := Config.toToml_of_no_text h
    refine ⟨iff_of_false (by simp [hrefused]) h, fun e => ?_, by simp [hrefused]⟩
    simp [hrefused, h, eq_comm]

end LineShell
