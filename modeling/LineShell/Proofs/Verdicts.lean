import LineShell.CommandLine.Run
import LineShell.Proofs.EffectiveSettings
import LineShell.Proofs.Walks
import LineShell.Proofs.WrittenSettings

/-!
# Verdicts on the file of settings

The shell can be asked to check its file of settings.  By then it has loaded the settings of that
same file, and a run that fails to load them ends without a verdict.  So a file that was named and
is not there is never said to be missing; that is only said of the usual place.  Of a file whose
settings can be loaded the verdict is the right one, whether they are then followed or not.

* `SettingsFile.verdict` — the verdict that is due; `Machine.judge_of_finds` says that it is given
  where the file is judged at all.
* `Verdict.message_eq_append_iff` — no two kinds of verdict are worded alike.
* `Run.Says`, `Machine.Judged` — a run with a verdict, and one whose verdict is the one that is due.
* `Machine.withFile` — a machine with one file; `Machine.finds_withFile` says that settings that are
  written to it are found there.
* `Machine.run_of_checks` — what is printed by a run that checks the file.
* **`checked_file_judged`** — every run that checks the file.
-/

namespace LineShell

/-! ## The verdict that is due -/

/-- The verdict on what is found at the path. -/
def SettingsFile.verdict : SettingsFile → Verdict
  | absent => .missing
  | unreadable cause => .unreadable (.io cause)
  | malformed reason => .unreadable (.config (.invalidFormat reason))
  | refused _ e => .invalid e
  | accepted _ => .valid

namespace Machine

variable {m : Machine} {path : Bytes}

/-- The settings at a path cannot be loaded, for a reason. -/
inductive CannotLoad (m : Machine) (path : Bytes) : ShellError → Prop
  | unreadable {cause : FileError} : m.Finds path (.unreadable cause) →
      m.CannotLoad path (.io cause)
  | malformed {reason : String} : m.Finds path (.malformed reason) →
      m.CannotLoad path (.config (.invalidFormat reason))

lemma judge_of_finds {f : SettingsFile} (h : m.Finds path f) : m.judge path = f.verdict := by
  cases h with
  | absent habsent => simp [judge, habsent, SettingsFile.verdict]
  | unreadable hexists hread =>
      have hload : m.loadConfig (some path) = _ := loadConfig_of_exists hexists
      simp [judge, hexists, hload, configPath, hread, SettingsFile.verdict]
  | malformed hexists hread hconfig =>
      have hload : m.loadConfig (some path) = _ := loadConfig_of_exists hexists
      simp [judge, hexists, hload, configPath, hread, hconfig, Except.mapError,
        SettingsFile.verdict]
  | refused hexists hread hconfig hvalid | accepted hexists hread hconfig hvalid =>
      have hload : m.loadConfig (some path) = _ := loadConfig_of_exists hexists
      simp [judge, hexists, hload, configPath, hread, hconfig, Except.mapError, hvalid,
        SettingsFile.verdict]

lemma finds_absent_iff : m.Finds path .absent ↔ m.pathExists path = false := by
  constructor
  · rintro ⟨habsent⟩
    assumption
  · intro habsent
    exact .absent habsent

end Machine

/-! ## Wording -/

namespace Verdict

/-- The part of a verdict that is worded alike for all files. -/
def front : Verdict → String
  | missing => "Configuration file does not exist"
  | valid => "Configuration is valid"
  | invalid _ => "Configuration validation failed: "
  | unreadable _ => "Failed to load configuration: "

def reason : Verdict → String
  | missing | valid => ""
  | invalid e => (ShellError.config e).message
  | unreadable e => e.message

lemma message_eq (v : Verdict) : v.message = v.front ++ v.reason := by
  cases v with
  | missing => rfl
  | valid => rfl
  | invalid e => rfl
  | unreadable e => rfl

def fronts : List String :=
  [missing, valid, invalid (.generic ""), unreadable (.config (.generic ""))].map front

lemma front_mem_fronts (v : Verdict) : v.front ∈ fronts := by
  cases v <;> simp [front, fronts]

/-- Sixteen characters tell the verdicts apart. -/
lemma fronts_apart : ∀ a ∈ fronts, 16 ≤ a.toList.length ∧
    ∀ b ∈ fronts, a.toList.take 16 = b.toList.take 16 → a = b := by
  decide

/-- Verdicts that read alike have the same front. -/
lemma front_eq_of_append_eq {v w : Verdict} {r q : String} (h : v.front ++ r = w.front ++ q) :
    v.front = w.front := by
  have hv := fronts_apart v.front v.front_mem_fronts
  have hw := fronts_apart w.front w.front_mem_fronts
  have hlists : v.front.toList ++ r.toList = w.front.toList ++ q.toList := by
    rw [← String.toList_append, h, String.toList_append]
  have htake := congrArg (List.take 16) hlists
  rw [List.take_append_of_le_length hv.1, List.take_append_of_le_length hw.1] at htake
  exact hv.2 w.front w.front_mem_fronts htake

lemma message_eq_append_iff {v w : Verdict} {r : String} :
    v.message = w.front ++ r ↔ v.front = w.front ∧ v.reason = r := by
  rw [message_eq]
  constructor
  · intro h
    have hfront := front_eq_of_append_eq h
    rw [hfront] at h
    exact ⟨hfront, String.append_right_inj _ |>.1 h⟩
  · rintro ⟨hfront, rfl⟩
    rw [hfront]

end Verdict

namespace SettingsFile

variable {f : SettingsFile} {reason : String}

lemma message_valid_iff : f.verdict.message = "Configuration is valid" ↔ ∃ c, f = .accepted c := by
  refine (Verdict.message_eq_append_iff (w := .valid) (r := "")).trans ?_
  cases f <;> simp [verdict, Verdict.front, Verdict.reason]

lemma message_missing_iff :
    f.verdict.message = "Configuration file does not exist" ↔ f = .absent := by
  refine (Verdict.message_eq_append_iff (w := .missing) (r := "")).trans ?_
  cases f <;> simp [verdict, Verdict.front, Verdict.reason]

lemma message_invalid_iff : f.verdict.message = "Configuration validation failed: " ++ reason ↔
    ∃ c e, f = .refused c e ∧ (ShellError.config e).message = reason := by
  refine (Verdict.message_eq_append_iff (w := .invalid (.generic ""))).trans ?_
  cases f <;> simp [verdict, Verdict.front, Verdict.reason]

lemma message_unreadable_iff : f.verdict.message = "Failed to load configuration: " ++ reason ↔
    (∃ cause, f = .unreadable cause ∧ (ShellError.io cause).message = reason) ∨
      ∃ why, f = .malformed why ∧ (ShellError.config (.invalidFormat why)).message = reason := by
  refine (Verdict.message_eq_append_iff (w := .unreadable (.config (.generic "")))).trans ?_
  cases f <;> simp [verdict, Verdict.front, Verdict.reason]

end SettingsFile

/-! ## A run with a verdict -/

/-- A run ends well and says one thing about the file at a path. -/
structure Run.Says (r : Run) (path : Bytes) (words : String) : Prop where
  exitCode : r.exitCode = 0
  stdout : r.output.stdout =
    [.line s!"Validating configuration file: {path.lossy}", .line words]

/-- A run gives the verdict that is due on the file at a path. -/
structure Machine.Judged (m : Machine) (path : Bytes) (r : Run) : Prop where
  given : ∃ words, r.Says path words
  valid : r.Says path "Configuration is valid" ↔ ∃ c, m.Finds path (.accepted c)
  invalid : ∀ reason, r.Says path ("Configuration validation failed: " ++ reason) ↔
    ∃ c e, m.Finds path (.refused c e) ∧ (ShellError.config e).message = reason
  unreadable : ∀ reason, r.Says path ("Failed to load configuration: " ++ reason) ↔
    ∃ e, m.CannotLoad path e ∧ e.message = reason
  missing : r.Says path "Configuration file does not exist" ↔ m.Finds path .absent

namespace Run.Says

variable {r : Run} {path : Bytes} {words : String}

lemma unique (h : r.Says path words) {others : String} : r.Says path others ↔ others = words := by
  constructor
  · intro hothers
    simpa [h.stdout, eq_comm] using hothers.stdout
  · rintro rfl
    exact h

lemma not_failure {o : Output} {e : ShellError} : ¬ (Run.failure o e).Says path words := by
  intro h
  exact absurd h.exitCode (by simp [failure])

end Run.Says

namespace Machine

variable {m : Machine} {path : Bytes} {r : Run} {f : SettingsFile}

lemma Finds.iff (h : m.Finds path f) {g : SettingsFile} : m.Finds path g ↔ f = g := by
  constructor
  · intro hg
    exact h.unique hg
  · rintro rfl
    exact h

lemma cannotLoad_iff {e : ShellError} : m.CannotLoad path e ↔
    (∃ cause, m.Finds path (.unreadable cause) ∧ e = .io cause) ∨
      ∃ why, m.Finds path (.malformed why) ∧ e = .config (.invalidFormat why) := by
  constructor
  · intro h
    cases h with
    | unreadable h => exact .inl ⟨_, h, rfl⟩
    | malformed h => exact .inr ⟨_, h, rfl⟩
  · rintro (⟨cause, h, rfl⟩ | ⟨why, h, rfl⟩)
    · exact .unreadable h
    · exact .malformed h

/-- The verdict that is due is told from all others by its words. -/
lemma judged_of_says (hf : m.Finds path f) (h : r.Says path f.verdict.message) :
    m.Judged path r where
  given := ⟨_, h⟩
  valid := by
    rw [h.unique, eq_comm, SettingsFile.message_valid_iff]
    simp only [hf.iff]
  invalid reason := by
    rw [h.unique, eq_comm, SettingsFile.message_invalid_iff]
    simp only [hf.iff]
  unreadable reason := by
    rw [h.unique, eq_comm, SettingsFile.message_unreadable_iff]
    simp only [cannotLoad_iff, hf.iff]
    constructor
    · rintro (⟨cause, hfound, hreason⟩ | ⟨why, hfound, hreason⟩)
      · exact ⟨_, .inl ⟨cause, hfound, rfl⟩, hreason⟩
      · exact ⟨_, .inr ⟨why, hfound, rfl⟩, hreason⟩
    · rintro ⟨e, (⟨cause, hfound, rfl⟩ | ⟨why, hfound, rfl⟩), hreason⟩
      · exact .inl ⟨cause, hfound, hreason⟩
      · exact .inr ⟨why, hfound, hreason⟩
  missing := by
    rw [h.unique, eq_comm, SettingsFile.message_missing_iff]
    simp only [hf.iff]

end Machine

/-! ## Arguments that ask for it -/

/-- Arguments that only ask for the file of settings to be checked, the name of the program
first; the file may be named. -/
def checkArguments (program : String) (file : Option String) : List String :=
  program :: (file.elim [] fun path => ["-c", path]) ++ ["config", "--validate"]

/-- The name of a file is read as one unless it is empty or looks like an option. -/
lemma read_checkArguments_named (program : String) {file : String} (hfile : file ≠ "")
    (hplain : Word.ofString file = .plain) :
    Arguments.read (checkArguments program (some file)) =
      .ok { configFile := some file, command := some (.config false true) } := by
  let waiting (value : Option String) : Reading :=
    ⟨[], some (⟨"config", some 'c', .value refuseEmpty⟩, value), []⟩
  have hdashes : file ≠ "--" := by
    rintro rfl
    exact absurd hplain (by decide)
  have hword : (waiting none).word shellSpec file = .ok (waiting (some file)) := by
    simp [Reading.word, hplain, waiting]
  have hfinish : (waiting (some file)).finish = .ok [("config", file)] := by
    simp [Reading.finish, Reading.settle, Reading.record, waiting, refuseEmpty, hfile, Except.bind]
  have hstop : shellSpec.read ["-c", file, "config", "--validate"] =
      .ok ⟨waiting (some file), some ("config", ["--validate"])⟩ := by
    have hletter : shellSpec.read ["-c", file, "config", "--validate"] =
        shellSpec.readFrom (waiting none) false [file, "config", "--validate"] := rfl
    rw [hletter, CommandSpec.readFrom, hword]
    simp only [hdashes]
    rfl
  have hcommand : Subcommand.read "config" ["--validate"] = .ok (.config false true) := rfl
  have hread : Arguments.read (checkArguments program (some file)) =
      (shellSpec.read ["-c", file, "config", "--validate"]).bind _ := rfl
  rw [hread, hstop]
  simp only [Except.bind, hcommand, Except.map, bind, hfinish]
  rfl

/-! ## A machine with one file -/

/-- A machine whose only file stands at the root. -/
def Machine.withFile (name text : String) : Machine :=
  ⟨⟨[([Bytes.ofString name], .file (Bytes.ofString text) .newFile none)]⟩, [], [], none⟩

namespace Machine

variable {name text : String}

lemma stat_withFile (hname : FileTree.IsFileName (Bytes.ofString name)) :
    (withFile name text).files.stat [] (Bytes.ofString name) =
      .ok (.file (Bytes.ofString text) .newFile none) := by
  have hnode : (withFile name text).files.node? ([] ++ [Bytes.ofString name]) =
      some (.file (Bytes.ofString text) .newFile none) := by
    simp [FileTree.node?, withFile]
  exact FileTree.stat_name (FileTree.grants_root _ _) hname hnode (by simp)

lemma pathExists_withFile (hname : FileTree.IsFileName (Bytes.ofString name)) :
    (withFile name text).pathExists (Bytes.ofString name) = true :=
  congrArg Except.isOk (stat_withFile hname)

lemma readText_withFile (hname : FileTree.IsFileName (Bytes.ofString name)) :
    (withFile name text).readText (Bytes.ofString name) = .ok text := by
  have hstat : (withFile name text).files.stat (withFile name text).place _ = _ :=
    stat_withFile hname
  have hread : Rights.newFile.ownerMay .read = true := rfl
  simp [readText, FileTree.readText, hstat, hread, bind, Except.bind]

/-- Settings that are written to the file are found there, and refused if they are not valid. -/
lemma finds_withFile {c : Config} {path : String} {e : ConfigError}
    (hname : FileTree.IsFileName (Bytes.ofString name))
    (hpath : c.history.filePath = .ofString path) (hvalid : c.validate = .error e) :
    (withFile name (String.ofList (Toml.writeSections (c.sections path)))).Finds
      (Bytes.ofString name) (.refused c e) :=
  .refused (pathExists_withFile hname) (readText_withFile hname)
    (Config.ofToml_written hpath _) hvalid

end Machine

/-- Settings that are refused, because the channel has no room. -/
def Config.withoutChannel : Config :=
  { completion := { channelCapacity := 0 }
    history := { filePath := Bytes.ofString "history" } }

/-- A machine whose only file holds these settings. -/
def Machine.withoutChannel : Machine :=
  withFile "zero.toml"
    (String.ofList (Toml.writeSections (Config.withoutChannel.sections "history")))

lemma Machine.withoutChannel_finds_refused :
    withoutChannel.Finds (Bytes.ofString "zero.toml")
      (.refused Config.withoutChannel (.invalidValue "completion.channel_capacity" "0")) := by
  have hname : FileTree.IsFileName (Bytes.ofString "zero.toml") := by constructor <;> decide
  exact finds_withFile hname rfl rfl

/-! ## Runs that check the file -/

namespace Machine

variable {m : Machine} {argv : List String} {a : Arguments}

lemma invoke_arguments {i : Invocation} (h : m.invoke a = .ok i) : i.arguments = a := by
  rcases invoke_eq_ok h with ⟨_, _, rfl⟩ | ⟨_, _, _, rfl⟩ | ⟨_, rfl⟩ <;> rfl

/-- The settings are loaded first; what is said of the file comes behind the warnings. -/
lemma run_of_checks (hread : Arguments.read argv = .ok a)
    (hcommand : a.command = some (.config false true)) :
    m.run argv = match m.invoke a with
      | .error e => .failure .nothing e
      | .ok i => .success (.errors i.warnings ++ (i.validate m ++ .nothing)) := by
  simp only [run, hread]
  cases hinvoke : m.invoke a with
  | error e => rfl
  | ok i =>
      have hi := invoke_arguments hinvoke
      simp [Invocation.handle, hi, hcommand, Invocation.perform, Except.map]

lemma says_of_checks {i : Invocation} (hinvoke : m.invoke a = .ok i) :
    (Run.success (.errors i.warnings ++ (i.validate m ++ .nothing))).Says
      (m.configPath a.configPath?) (m.judge (m.configPath a.configPath?)).message where
  exitCode := rfl
  stdout := by
    have hi := invoke_arguments hinvoke
    simp only [Invocation.validate, Invocation.configPath, hi]
    rfl

/-- What a run that checks the file of settings comes to. -/
structure CheckedFile (m : Machine) (a : Arguments) (r : Run) : Prop where
  /-- A file that is named has to be there. -/
  named : ∀ path, a.configPath? = some path → m.Finds path .absent →
    r = .failure .nothing (.config (.fileNotFound path.lossy))
  /-- Of all other files whose settings can be loaded the verdict is given that is due. -/
  judged : (∀ path, a.configPath? = some path → ¬ m.Finds path .absent) →
    (∀ e, ¬ m.CannotLoad (m.configPath a.configPath?) e) →
    m.Judged (m.configPath a.configPath?) r
  /-- A verdict, where one is given, is always the one that is due. -/
  faithful : ∀ f words, m.Finds (m.configPath a.configPath?) f →
    r.Says (m.configPath a.configPath?) words → words = f.verdict.message

/-- Where the settings are loaded the verdict is given that is due. -/
lemma says_of_invoke {i : Invocation} {f : SettingsFile} (hread : Arguments.read argv = .ok a)
    (hcommand : a.command = some (.config false true)) (hinvoke : m.invoke a = .ok i)
    (hf : m.Finds (m.configPath a.configPath?) f) :
    (m.run argv).Says (m.configPath a.configPath?) f.verdict.message := by
  rw [run_of_checks hread hcommand, hinvoke, ← judge_of_finds hf]
  exact says_of_checks hinvoke

/-- Where they are not, there is no verdict. -/
lemma not_says_of_invoke {e : ShellError} {path : Bytes} {words : String}
    (hread : Arguments.read argv = .ok a) (hcommand : a.command = some (.config false true))
    (hinvoke : m.invoke a = .error e) : ¬ (m.run argv).Says path words := by
  rw [run_of_checks hread hcommand, hinvoke]
  exact Run.Says.not_failure

end Machine

/-- **A run that checks the file of settings**, for every machine and all arguments that ask for
it. -/
theorem checked_file_judged (m : Machine) (argv : List String) (a : Arguments)
    (hread : Arguments.read argv = .ok a) (hcommand : a.command = some (.config false true)) :
    m.CheckedFile a (m.run argv) := by
  obtain ⟨f, hf⟩ := m.exists_finds (m.configPath a.configPath?)
  refine ⟨?_, ?_, ?_⟩
  · intro path hnamed habsent
    rw [Machine.run_of_checks hread hcommand,
      Machine.invoke_of_missing hnamed (Machine.finds_absent_iff.1 habsent)]
  · intro hthere hloads
    cases hinvoke : m.invoke a with
    | ok i => exact Machine.judged_of_says hf (Machine.says_of_invoke hread hcommand hinvoke hf)
    | error e =>
        rcases Machine.invoke_eq_error_iff.1 hinvoke with
          ⟨path, hnamed, hmissing, -⟩ | ⟨cause, hfound, -⟩ | ⟨reason, hfound, -⟩
        · exact absurd (.absent hmissing) (hthere path hnamed)
        · exact absurd (.unreadable hfound) (hloads _)
        · exact absurd (.malformed hfound) (hloads _)
  · intro g words hg hsays
    cases hinvoke : m.invoke a with
    | ok i => exact (Machine.says_of_invoke hread hcommand hinvoke hg).unique.1 hsays
    | error e => exact absurd hsays (Machine.not_says_of_invoke hread hcommand hinvoke)

/-- The file is there and its settings are refused, so the verdict has to say why. -/
theorem checked_file_judged_refused :
    Arguments.read (checkArguments "shline" (some "zero.toml")) =
        .ok { configFile := some "zero.toml", command := some (.config false true) } ∧
      Machine.withoutChannel.CheckedFile
        { configFile := some "zero.toml", command := some (.config false true) }
        (Machine.withoutChannel.run (checkArguments "shline" (some "zero.toml"))) ∧
      (Machine.withoutChannel.run (checkArguments "shline" (some "zero.toml"))).Says
        (Bytes.ofString "zero.toml")
        ("Configuration validation failed: " ++
          "Configuration error: Invalid value '0' for field 'completion.channel_capacity'") := by
  have hread : Arguments.read (checkArguments "shline" (some "zero.toml")) = _ :=
    read_checkArguments_named "shline" (by decide) (by decide)
  have hchecked := checked_file_judged Machine.withoutChannel _ _ hread rfl
  have hfinds := Machine.withoutChannel_finds_refused
  refine ⟨hread, hchecked, ?_⟩
  have hthere : ¬ Machine.withoutChannel.Finds (Bytes.ofString "zero.toml") .absent := by
    simp [hfinds.iff]
  have hloads : ∀ e, ¬ Machine.withoutChannel.CannotLoad (Bytes.ofString "zero.toml") e := by
    intro e
    simp [Machine.cannotLoad_iff, hfinds.iff]
  have hjudged := hchecked.judged (fun path hpath => Option.some.inj hpath ▸ hthere) hloads
  exact (hjudged.invalid _).2 ⟨_, _, hfinds, rfl⟩

/-! ## Named and missing -/

/-- A machine without any files. -/
def Machine.withoutFiles : Machine :=
  ⟨⟨[]⟩, [], [], none⟩

lemma Machine.withoutFiles_finds_absent :
    withoutFiles.Finds (Bytes.ofString "missing.toml") .absent := by
  have hname : FileTree.IsFileName (Bytes.ofString "missing.toml") := by constructor <;> decide
  have hnode : withoutFiles.files.node? ([] ++ [Bytes.ofString "missing.toml"]) = none := rfl
  have hstat := FileTree.stat_name (FileTree.grants_root _ _) hname hnode (by simp)
  exact .absent (congrArg Except.isOk hstat)

/-- A file that is named and is not there is not said to be missing. -/
theorem named_file_not_said_missing :
    ¬ Machine.withoutFiles.Judged (Bytes.ofString "missing.toml")
      (Machine.withoutFiles.run (checkArguments "shline" (some "missing.toml"))) := by
  intro h
  have hread : Arguments.read (checkArguments "shline" (some "missing.toml")) = _ :=
    read_checkArguments_named "shline" (by decide) (by decide)
  have hinvoke := Machine.invoke_of_missing (m := Machine.withoutFiles)
    (a := { configFile := some "missing.toml", command := some (.config false true) }) rfl
    (Machine.finds_absent_iff.1 Machine.withoutFiles_finds_absent)
  exact Machine.not_says_of_invoke hread rfl hinvoke
    (h.missing.2 Machine.withoutFiles_finds_absent)

end LineShell
