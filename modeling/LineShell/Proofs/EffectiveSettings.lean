import LineShell.CommandLine.Invocation
import Mathlib.Tactic.Common

/-!
# The settings in force

The settings come from three places, and what counts is decided by what is found at the path of the
file.  There are five cases: nothing, a file that cannot be read, a text that holds no settings,
settings that are refused, and settings that are accepted.  The first makes a difference only where
the path was named, the next two end the run, and the last two give the settings that the arguments
then change.

* `SettingsFile`, `Machine.Finds` — the five cases; `Machine.exists_finds` and
  `Machine.Finds.unique` say that one of them holds.
* `Machine.invoke_of_finds` — what becomes of each.
* `Arguments.Changes` — what the arguments change, field by field.
* **`effective_settings`** — when there are no settings, and otherwise which.
-/

namespace LineShell

/-! ## The file -/

/-- What may be found where the settings are looked for. -/
inductive SettingsFile where
  | absent
  | unreadable (cause : FileError)
  | malformed (reason : String)
  | refused (c : Config) (e : ConfigError)
  | accepted (c : Config)

/-- What is found at a path. -/
inductive Machine.Finds (m : Machine) (path : Bytes) : SettingsFile → Prop
  | absent : m.pathExists path = false → m.Finds path .absent
  | unreadable {cause : FileError} : m.pathExists path = true →
      m.readText path = .error cause → m.Finds path (.unreadable cause)
  | malformed {text reason : String} : m.pathExists path = true → m.readText path = .ok text →
      Config.ofToml m.standardConfig text = .error (.invalidFormat reason) →
      m.Finds path (.malformed reason)
  | refused {text : String} {c : Config} {e : ConfigError} : m.pathExists path = true →
      m.readText path = .ok text → Config.ofToml m.standardConfig text = .ok c →
      c.validate = .error e → m.Finds path (.refused c e)
  | accepted {text : String} {c : Config} : m.pathExists path = true →
      m.readText path = .ok text → Config.ofToml m.standardConfig text = .ok c →
      c.validate = .ok () → m.Finds path (.accepted c)

namespace Machine

variable {m : Machine} {path : Bytes}

/-- A text that holds no settings has the wrong format, whatever is wrong with it. -/
lemma exists_of_ofToml_eq_error {standard : Config} {text : String} {e : ConfigError}
    (h : Config.ofToml standard text = .error e) : ∃ reason, e = .invalidFormat reason := by
  unfold Config.ofToml at h
  split at h
  · exact ⟨_, (Except.error.inj h).symm⟩
  · split at h
    · exact ⟨_, (Except.error.inj h).symm⟩
    · exact absurd h (by simp)

lemma exists_finds (m : Machine) (path : Bytes) : ∃ f, m.Finds path f := by
  cases hexists : m.pathExists path with
  | false => exact ⟨_, .absent hexists⟩
  | true =>
      cases hread : m.readText path with
      | error cause => exact ⟨_, .unreadable hexists hread⟩
      | ok text =>
          cases hconfig : Config.ofToml m.standardConfig text with
          | error e =>
              obtain ⟨reason, rfl⟩ := exists_of_ofToml_eq_error hconfig
              exact ⟨_, .malformed hexists hread hconfig⟩
          | ok c =>
              cases hvalid : c.validate with
              | error e => exact ⟨_, .refused hexists hread hconfig hvalid⟩
              | ok u => exact ⟨_, .accepted hexists hread hconfig hvalid⟩

lemma Finds.unique {f g : SettingsFile} (hf : m.Finds path f) (hg : m.Finds path g) : f = g := by
  cases hf <;> cases hg <;> simp_all

end Machine

/-! ## What becomes of it -/

/-- What a run makes of what is found. -/
def SettingsFile.settle (m : Machine) (a : Arguments) : SettingsFile → Except ShellError Invocation
  | absent =>
    match a.configPath? with
    | some path => .error (.config (.fileNotFound path.lossy))
    | none => .ok ⟨a, a.override m.standardConfig, []⟩
  | unreadable cause => .error (.io cause)
  | malformed reason => .error (.config (.invalidFormat reason))
  | refused _ e => .ok ⟨a, a.override m.standardConfig, validationWarnings e⟩
  | accepted c => .ok ⟨a, a.override c, []⟩

namespace Machine

variable {m : Machine} {a : Arguments}

lemma validate_standardConfig (m : Machine) : m.standardConfig.validate = .ok () := rfl

/-- Without a file at a path that was named, nothing is loaded. -/
lemma invoke_of_missing {path : Bytes} (hnamed : a.configPath? = some path)
    (hmissing : m.pathExists path = false) :
    m.invoke a = .error (.config (.fileNotFound path.lossy)) := by
  simp [invoke, hnamed, hmissing, bind, Except.bind]

/-- In all other cases the settings are loaded and checked. -/
lemma invoke_of_not_missing
    (h : ∀ path, a.configPath? = some path → m.pathExists path = true) :
    m.invoke a = (m.loadConfig a.configPath?).bind fun c =>
      match c.validate with
      | .ok _ => .ok ⟨a, a.override c, []⟩
      | .error e => .ok ⟨a, a.override m.standardConfig, validationWarnings e⟩ := by
  rw [invoke]
  cases hnamed : a.configPath? with
  | none => rfl
  | some path =>
      have hexists := h path hnamed
      simp only [hexists]
      rfl

lemma loadConfig_of_absent {path : Option Bytes} (h : m.pathExists (m.configPath path) = false) :
    m.loadConfig path = .ok m.standardConfig := by
  simp [loadConfig, h]

lemma loadConfig_of_exists {path : Option Bytes} (h : m.pathExists (m.configPath path) = true) :
    m.loadConfig path = match m.readText (m.configPath path) with
      | .error cause => .error (.io cause)
      | .ok text => (Config.ofToml m.standardConfig text).mapError .config := by
  exact if_pos h

/-- A path that is named is the one where the settings are looked for. -/
lemma pathExists_of_named (h : m.pathExists (m.configPath a.configPath?) = true) :
    ∀ path, a.configPath? = some path → m.pathExists path = true := by
  intro path hnamed
  rwa [hnamed] at h

/-- What becomes of what is found. -/
theorem invoke_of_finds {f : SettingsFile} (h : m.Finds (m.configPath a.configPath?) f) :
    m.invoke a = f.settle m a := by
  cases h with
  | absent habsent =>
      cases hnamed : a.configPath? with
      | some path =>
          have hmissing : m.pathExists path = false := by rwa [hnamed] at habsent
          rw [invoke_of_missing hnamed hmissing]
          simp [SettingsFile.settle, hnamed]
      | none =>
          rw [invoke_of_not_missing (by simp [hnamed]), loadConfig_of_absent habsent]
          simp [SettingsFile.settle, hnamed, Except.bind, validate_standardConfig]
  | unreadable hexists hread =>
      rw [invoke_of_not_missing (pathExists_of_named hexists), loadConfig_of_exists hexists, hread]
      rfl
  | malformed hexists hread hconfig =>
      rw [invoke_of_not_missing (pathExists_of_named hexists), loadConfig_of_exists hexists, hread]
      simp only [hconfig]
      rfl
  | refused hexists hread hconfig hvalid =>
      rw [invoke_of_not_missing (pathExists_of_named hexists), loadConfig_of_exists hexists, hread]
      simp only [hconfig, Except.mapError, Except.bind, hvalid]
      rfl
  | accepted hexists hread hconfig hvalid =>
      rw [invoke_of_not_missing (pathExists_of_named hexists), loadConfig_of_exists hexists, hread]
      simp only [hconfig, Except.mapError, Except.bind, hvalid]
      rfl

end Machine

/-! ## What the arguments change -/

/-- What the arguments make of settings, field by field: two of the ten may differ. -/
structure Arguments.Changes (a : Arguments) (base c : Config) : Prop where
  channelCapacity : c.completion.channelCapacity = base.completion.channelCapacity
  variableStyle : c.completion.variableStyle = base.completion.variableStyle
  commandStyle : c.completion.commandStyle = base.completion.commandStyle
  useLsColors : c.completion.useLsColors = base.completion.useLsColors
  maxSize : c.history.maxSize = base.history.maxSize
  filePath : c.history.filePath = base.history.filePath
  persist : c.history.persist = base.history.persist
  timestamps : c.logging.timestamps = base.logging.timestamps
  colorOutput : c.display.colorOutput = if a.noColor then false else base.display.colorOutput
  /-- The loudest of the wishes counts. -/
  level : c.logging.level =
    if a.veryVerbose then .trace
    else if a.verbose then .debug
    else if a.quiet then .error
    else base.logging.level

/-- The fields are all that there is to settings. -/
lemma Arguments.changes_iff {a : Arguments} {base c : Config} :
    a.Changes base c ↔ c = a.override base := by
  constructor
  · rintro ⟨hcapacity, hvariable, hcommand, hcolors, hsize, hpath, hpersist, htimes, hcolor, hlevel⟩
    obtain ⟨⟨_, _, _, _⟩, ⟨_⟩, ⟨_, _, _⟩, ⟨_, _⟩⟩ := c
    simp only at hcapacity hvariable hcommand hcolors hsize hpath hpersist htimes hcolor hlevel
    subst hcapacity hvariable hcommand hcolors hsize hpath hpersist htimes hcolor hlevel
    cases hno : a.noColor <;> simp [override, Arguments.level, hno]
  · rintro rfl
    refine ⟨rfl, rfl, rfl, rfl, rfl, rfl, rfl, rfl, ?_, rfl⟩
    cases hno : a.noColor <;> simp [override, hno]

/-! ## The settings in force -/

/-- When a run has no settings, and otherwise which. -/
structure EffectiveSettings (m : Machine) (a : Arguments) : Prop where
  fails : ∀ e, m.invoke a = .error e ↔
    (∃ path, a.configPath? = some path ∧ m.pathExists path = false ∧
      e = .config (.fileNotFound path.lossy)) ∨
    (∃ cause, m.Finds (m.configPath a.configPath?) (.unreadable cause) ∧ e = .io cause) ∨
    ∃ reason, m.Finds (m.configPath a.configPath?) (.malformed reason) ∧
      e = .config (.invalidFormat reason)
  valid : ∀ i, m.invoke a = .ok i → i.arguments = a ∧ i.config.validate = .ok ()
  /-- Settings that are accepted, with what the arguments change. -/
  fromFile : ∀ i c, m.invoke a = .ok i → m.Finds (m.configPath a.configPath?) (.accepted c) →
    a.Changes c i.config
  /-- Otherwise all of the standard settings, with what the arguments change. -/
  standard : ∀ i, m.invoke a = .ok i →
    (∀ c, ¬ m.Finds (m.configPath a.configPath?) (.accepted c)) →
    a.Changes m.standardConfig i.config
  warned : ∀ i, m.invoke a = .ok i → (i.warnings ≠ [] ↔
    ∃ c e, m.Finds (m.configPath a.configPath?) (.refused c e))

namespace Machine

variable {m : Machine} {a : Arguments}

/-- A run has no settings in three cases. -/
lemma invoke_eq_error_iff {e : ShellError} :
    m.invoke a = .error e ↔
      (∃ path, a.configPath? = some path ∧ m.pathExists path = false ∧
        e = .config (.fileNotFound path.lossy)) ∨
      (∃ cause, m.Finds (m.configPath a.configPath?) (.unreadable cause) ∧ e = .io cause) ∨
      ∃ reason, m.Finds (m.configPath a.configPath?) (.malformed reason) ∧
        e = .config (.invalidFormat reason) := by
  constructor
  · intro h
    obtain ⟨f, hf⟩ := m.exists_finds (m.configPath a.configPath?)
    rw [invoke_of_finds hf] at h
    cases hf with
    | absent habsent =>
        cases hnamed : a.configPath? with
        | some path =>
            rw [SettingsFile.settle, hnamed] at h
            rw [hnamed] at habsent
            exact .inl ⟨path, rfl, habsent, (Except.error.inj h).symm⟩
        | none =>
            rw [SettingsFile.settle, hnamed] at h
            exact absurd h (by simp)
    | unreadable hexists hread =>
        exact .inr (.inl ⟨_, .unreadable hexists hread, (Except.error.inj h).symm⟩)
    | malformed hexists hread hconfig =>
        exact .inr (.inr ⟨_, .malformed hexists hread hconfig, (Except.error.inj h).symm⟩)
    | refused | accepted => exact absurd h (by simp [SettingsFile.settle])
  · rintro (⟨path, hnamed, hmissing, rfl⟩ | ⟨cause, hf, rfl⟩ | ⟨reason, hf, rfl⟩)
    · exact invoke_of_missing hnamed hmissing
    · exact invoke_of_finds hf
    · exact invoke_of_finds hf

/-- The settings of a run that has some are those of a file that is accepted, or the standard ones,
and it is warned where a file is refused. -/
lemma invoke_eq_ok {i : Invocation} (h : m.invoke a = .ok i) :
    (∃ c, m.Finds (m.configPath a.configPath?) (.accepted c) ∧ i = ⟨a, a.override c, []⟩) ∨
    (∃ c e, m.Finds (m.configPath a.configPath?) (.refused c e) ∧
      i = ⟨a, a.override m.standardConfig, validationWarnings e⟩) ∨
    m.Finds (m.configPath a.configPath?) .absent ∧
      i = ⟨a, a.override m.standardConfig, []⟩ := by
  obtain ⟨f, hf⟩ := m.exists_finds (m.configPath a.configPath?)
  rw [invoke_of_finds hf] at h
  cases f with
  | absent =>
      cases hnamed : a.configPath? with
      | some path =>
          rw [SettingsFile.settle, hnamed] at h
          exact absurd h (by simp)
      | none =>
          rw [SettingsFile.settle, hnamed] at h
          rw [hnamed] at hf
          exact .inr (.inr ⟨hf, (Except.ok.inj h).symm⟩)
  | unreadable cause | malformed reason => exact absurd h (by simp [SettingsFile.settle])
  | refused c e => exact .inr (.inl ⟨c, e, hf, (Except.ok.inj h).symm⟩)
  | accepted c => exact .inl ⟨c, hf, (Except.ok.inj h).symm⟩

end Machine

/-- **The settings in force**, for every machine and all arguments: there are none only where
a file was named that is not there, or where the file cannot be read or holds no settings.
Otherwise they are never such as are refused. -/
theorem effective_settings (m : Machine) (a : Arguments) : EffectiveSettings m a := by
  refine ⟨fun e => Machine.invoke_eq_error_iff, ?_, ?_, ?_, ?_⟩
  · intro i hi
    rcases Machine.invoke_eq_ok hi with ⟨c, hf, rfl⟩ | ⟨c, e, -, rfl⟩ | ⟨-, rfl⟩
    · cases hf with
      | accepted _ _ _ hvalid => exact ⟨rfl, hvalid⟩
    · exact ⟨rfl, m.validate_standardConfig⟩
    · exact ⟨rfl, m.validate_standardConfig⟩
  · intro i c hi hf
    rcases Machine.invoke_eq_ok hi with ⟨d, hg, rfl⟩ | ⟨d, e, hg, -⟩ | ⟨hg, -⟩
    · obtain rfl := SettingsFile.accepted.inj (hf.unique hg)
      exact Arguments.changes_iff.2 rfl
    · exact absurd (hf.unique hg) (by simp)
    · exact absurd (hf.unique hg) (by simp)
  · intro i hi hnone
    rcases Machine.invoke_eq_ok hi with ⟨c, hf, -⟩ | ⟨c, e, -, rfl⟩ | ⟨-, rfl⟩
    · exact absurd hf (hnone c)
    · exact Arguments.changes_iff.2 rfl
    · exact Arguments.changes_iff.2 rfl
  · intro i hi
    rcases Machine.invoke_eq_ok hi with ⟨c, hf, rfl⟩ | ⟨c, e, hf, rfl⟩ | ⟨hf, rfl⟩
    · refine ⟨fun hwarned => absurd rfl hwarned, ?_⟩
      rintro ⟨d, e, hg⟩
      exact absurd (hf.unique hg) (by simp)
    · exact ⟨fun _ => ⟨c, e, hf⟩, fun _ => List.cons_ne_nil _ _⟩
    · refine ⟨fun hwarned => absurd rfl hwarned, ?_⟩
      rintro ⟨d, e, hg⟩
      exact absurd (hf.unique hg) (by simp)

end LineShell
