import LineShell.CommandLine.Run
import LineShell.Proofs.OneOffReport

/-!
# Starting at a terminal

A session at a terminal begins with the variables of the environment.  Where all of them are text it
begins with exactly these, each with its value.  One name or value that is no text, wherever it
stands and whether or not anything ever asks for it, and there is no session: the run is cut off.

* `Scope.get?_ofList_eq_some_iff` — names that are distinct keep their values.
* `StartsWith` — a session that has the variables of an environment and no others.
* **`session_starts_iff_text`** — which environments the shell starts in, and what it starts with.
-/

namespace LineShell

namespace Scope

lemma get?_foldl_set_eq_some_iff {bs : List Binding} (hdistinct : (bs.map Prod.fst).Nodup)
    (s : Scope) (x v : String) :
    (bs.foldl (fun s b => s.set b.1 b.2) s).get? x = some v ↔
      (x, v) ∈ bs ∨ x ∉ bs.map Prod.fst ∧ s.get? x = some v := by
  induction bs generalizing s with
  | nil => simp
  | cons b bs ih =>
      rw [List.map_cons, List.nodup_cons] at hdistinct
      rw [List.foldl_cons, ih hdistinct.2, get?_set, List.mem_cons, List.map_cons, List.mem_cons]
      by_cases hx : x = b.1
      · -- a name that is set here is not set again
        subst hx
        have hlater : (b.1, v) ∉ bs := fun hv => hdistinct.1 (List.mem_map.2 ⟨_, hv, rfl⟩)
        simp [hlater, hdistinct.1, Prod.ext_iff, eq_comm]
      · simp [hx, Prod.ext_iff]

/-- Where no name stands twice, each has the value that stands with it. -/
lemma get?_ofList_eq_some_iff {bs : List Binding} (hdistinct : (bs.map Prod.fst).Nodup)
    (x v : String) : (ofList bs).get? x = some v ↔ (x, v) ∈ bs := by
  rw [ofList, get?_foldl_set_eq_some_iff hdistinct]
  simp

/-- A session begins with the values of the environment. -/
lemma get?_ofEnvironment_eq_some_iff {env : Environment} {scope : Scope}
    (hdistinct : (env.map Prod.fst).Nodup) (h : ofEnvironment env = .ok scope) (x v : String) :
    scope.get? x = some v ↔ (Bytes.ofString x, Bytes.ofString v) ∈ env := by
  rw [ofEnvironment_eq] at h
  cases henv : env.mapM binding with
  | error e => simp [henv, Except.map] at h
  | ok bs =>
      rw [henv] at h
      obtain rfl := Except.ok.inj h
      rw [mapM_binding_eq_ok_iff] at henv
      subst henv
      have hnames : (bs.map Prod.fst).Nodup := by
        rw [List.map_map] at hdistinct
        refine List.Nodup.of_map Bytes.ofString ?_
        rwa [List.map_map]
      rw [get?_ofList_eq_some_iff hnames]
      constructor
      · exact fun hmem => List.mem_map.2 ⟨(x, v), hmem, rfl⟩
      · intro hmem
        obtain ⟨b, hb, hpair⟩ := List.mem_map.1 hmem
        obtain ⟨hname, hvalue⟩ := Prod.mk.inj hpair
        rwa [← Bytes.ofString_injective hname, ← Bytes.ofString_injective hvalue]

/-- A variable that is no text is the only thing in an environment that stops the shell. -/
lemma ofEnvironment_eq_error_iff {env : Environment} {f : Fault} :
    ofEnvironment env = .error f ↔ ¬ env.IsText ∧ f = .notText := by
  rw [← exists_ofEnvironment_iff]
  cases henv : ofEnvironment env with
  | ok scope => simp
  | error e =>
      have hfault : e = .notText := by
        rw [ofEnvironment_eq] at henv
        cases hbindings : env.mapM binding with
        | ok bs => simp [hbindings, Except.map] at henv
        | error e' =>
            obtain rfl : e' = e := by simpa [hbindings, Except.map] using henv
            obtain ⟨v, -, hv⟩ := exists_of_mapM_eq_error hbindings
            unfold binding at hv
            split at hv
            · exact absurd hv (by simp)
            · exact (Except.error.inj hv).symm
      simp [hfault, eq_comm]

end Scope

variable {m : Machine} {s : Session Machine}

/-- A session that has the variables of an environment and no others. -/
structure StartsWith (env : Environment) (s : Session Machine) : Prop where
  value : ∀ name value, s.scope.get? name = some value ↔
    (Bytes.ofString name, Bytes.ofString value) ∈ env
  globals : ∀ name, name ∈ s.snapshot.globals ↔ env.Sets name

namespace Machine

lemma startsWith_of_startSession (hdistinct : (m.environment.map Prod.fst).Nodup)
    (h : m.startSession = .ok s) : StartsWith m.environment s := by
  unfold startSession at h
  cases hscope : Scope.ofEnvironment m.environment with
  | error e => simp [hscope, Except.map] at h
  | ok scope =>
      obtain rfl : (Session.start m).withScope scope = s := by
        simpa [hscope, Except.map] using h
      exact {
        value := Scope.get?_ofEnvironment_eq_some_iff hdistinct hscope
        globals := fun name =>
          Session.mem_globals_snapshot.trans (Scope.isSome_get?_ofEnvironment hscope) }

lemma startSession_eq_error_iff {f : Fault} :
    m.startSession = .error f ↔ ¬ m.environment.IsText ∧ f = .notText := by
  rw [← Scope.ofEnvironment_eq_error_iff, startSession]
  cases Scope.ofEnvironment m.environment <;> simp [Except.map]

lemma exists_startSession_iff : (∃ s, m.startSession = .ok s) ↔ m.environment.IsText := by
  rw [← Scope.exists_ofEnvironment_iff, startSession]
  cases Scope.ofEnvironment m.environment <;> simp [Except.map]

/-- Without a terminal a run gets to where a line is asked for, if a session starts. -/
lemma exitCode_runDetached_eq_iff (before : Output) (c : Config) :
    (m.runDetached before c).exitCode = faultCode ↔ ∃ f, m.startSession = .error f := by
  unfold runDetached
  cases m.startSession <;>
    simp [Run.fault, Run.failure, Interactive.readDetached, faultCode]

end Machine

/-- Whether the shell starts in the environment of a machine, and what it starts with. -/
structure StartsUp (m : Machine) : Prop where
  /-- A session starts just where all variables are text. -/
  starts_iff : (∃ s, m.startSession = .ok s) ↔ m.environment.IsText
  /-- It begins with the variables, each with its value. -/
  begins : ∀ s, m.startSession = .ok s → StartsWith m.environment s
  /-- Elsewhere there is no session. -/
  stopped_iff : m.startSession = .error .notText ↔ ¬ m.environment.IsText
  /-- The run is cut off there, whatever the settings are. -/
  cut_off_iff : ∀ before c,
    (m.runDetached before c).exitCode = faultCode ↔ ¬ m.environment.IsText

/-- **The shell starts in an environment of text and in no other**, and it starts with the variables
of the environment. -/
theorem session_starts_iff_text (hdistinct : (m.environment.map Prod.fst).Nodup) :
    StartsUp m where
  starts_iff := Machine.exists_startSession_iff
  begins _ hs := Machine.startsWith_of_startSession hdistinct hs
  stopped_iff := by
    rw [Machine.startSession_eq_error_iff]
    exact and_iff_left rfl
  cut_off_iff before c := by
    rw [Machine.exitCode_runDetached_eq_iff]
    constructor
    · rintro ⟨f, hf⟩
      exact (Machine.startSession_eq_error_iff.1 hf).1
    · exact fun hnot => ⟨_, Machine.startSession_eq_error_iff.2 ⟨hnot, rfl⟩⟩

/-! ## One variable that is no text -/

/-- A machine with nothing on it but two variables. -/
def machineAt (home : Bytes) : Machine :=
  ⟨⟨[]⟩, [], [(Bytes.ofString "HOME", home), (Bytes.ofString "PATH", Bytes.ofString "/bin")], none⟩

lemma nodup_machineAt (home : Bytes) : ((machineAt home).environment.map Prod.fst).Nodup := by
  have hne : Bytes.ofString "HOME" ≠ Bytes.ofString "PATH" :=
    Bytes.ofString_injective.ne (by decide)
  simp [machineAt, hne]

theorem session_starts_iff_text_home :
    ((machineAt (Bytes.ofString "/h")).environment.map Prod.fst).Nodup ∧
      StartsUp (machineAt (Bytes.ofString "/h")) :=
  ⟨nodup_machineAt _, session_starts_iff_text (nodup_machineAt _)⟩

/-- A byte that no text has keeps the shell from starting. -/
theorem home_without_text_stops_start :
    ((machineAt [0x2F, 0x68, 0xFF]).environment.map Prod.fst).Nodup ∧
      (¬ ∃ s, (machineAt [0x2F, 0x68, 0xFF]).startSession = .ok s) ∧
      ∀ before c, ((machineAt [0x2F, 0x68, 0xFF]).runDetached before c).exitCode = faultCode := by
  have hbytes : Bytes.text? [0x2F, 0x68, 0xFF] = none := by decide
  have hnot : ¬ (machineAt [0x2F, 0x68, 0xFF]).environment.IsText := by
    intro htext
    obtain ⟨-, t, ht⟩ := htext _ List.mem_cons_self
    exact Option.some_ne_none t (ht.symm.trans hbytes)
  have hstart := Machine.startSession_eq_error_iff.2 ⟨hnot, rfl⟩
  refine ⟨nodup_machineAt _, by simp [hstart], fun before c => ?_⟩
  exact (Machine.exitCode_runDetached_eq_iff before c).2 ⟨_, hstart⟩

end LineShell
