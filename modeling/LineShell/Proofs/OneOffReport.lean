import LineShell.CommandLine.Invocation
import LineShell.CommandLine.Report
import LineShell.Interactive
import LineShell.Proofs.DefinedNames

/-!
# Completing once, and at a terminal

Both ways to complete a line know the same programs, files and settings.  They differ in the scope:
a session at a terminal begins with the variables of the environment, and a line that is completed
once is completed without them.  So the two reports are the same, but for the names that the
environment alone gives: variables behind a sigil, and functions where a command is wanted.

* `Environment.Sets` — the names of the environment; `Scope.isSome_get?_ofEnvironment` says that a
  session at a terminal begins with them.
* `Session.report` — what a session reports of a line; `Session.report_of_reference` and
  `Session.report_of_command` say it by names, and elsewhere `Session.report_congr` needs no scope.
* `Report.ofNames_append_iff` — when names make no difference to a report.
* **`report_agrees_iff`** — where the two ways agree, and what each reports where they may not.
-/

namespace LineShell

/-! ## The variables of the environment -/

/-- The environment has a value for a name. -/
def Environment.Sets (env : Environment) (name : String) : Prop :=
  ∃ value, (Bytes.ofString name, value) ∈ env

def Bytes.IsText (b : Bytes) : Prop :=
  ∃ s, b.text? = some s

/-- Names and values are all text. -/
def Environment.IsText (env : Environment) : Prop :=
  ∀ v ∈ env, v.1.IsText ∧ v.2.IsText

namespace Scope

lemma isSome_get?_foldl_set (bs : List Binding) (s : Scope) (x : String) :
    ((bs.foldl (fun s b => s.set b.1 b.2) s).get? x).isSome = true ↔
      x ∈ bs.map Prod.fst ∨ (s.get? x).isSome = true := by
  induction bs generalizing s with
  | nil => simp
  | cons b bs ih =>
      rw [List.foldl_cons, ih, get?_set, List.map_cons, List.mem_cons]
      by_cases h : x = b.1 <;> simp [h]

/-- The names of a list are those that have a value in it. -/
lemma isSome_get?_ofList {bs : List Binding} {x : String} :
    ((ofList bs).get? x).isSome = true ↔ x ∈ bs.map Prod.fst := by
  rw [ofList, isSome_get?_foldl_set, get?_empty]
  simp

/-- A variable of the environment as a binding. -/
def binding (v : Bytes × Bytes) : Except Fault Binding :=
  match v.1.text?, v.2.text? with
  | some name, some value => .ok (name, value)
  | _, _ => .error .notText

lemma ofEnvironment_eq (env : Environment) :
    ofEnvironment env = (env.mapM binding).map ofList :=
  rfl

lemma binding_eq_ok_iff {v : Bytes × Bytes} {b : Binding} :
    binding v = .ok b ↔ v = (Bytes.ofString b.1, Bytes.ofString b.2) := by
  rw [Prod.ext_iff, ← Bytes.text?_eq_some_iff, ← Bytes.text?_eq_some_iff, binding]
  cases v.1.text? <;> cases v.2.text? <;> simp [Prod.ext_iff]

lemma isText_iff {v : Bytes × Bytes} : v.1.IsText ∧ v.2.IsText ↔ ∃ b, binding v = .ok b := by
  rw [binding, Bytes.IsText, Bytes.IsText]
  cases v.1.text? <;> cases v.2.text? <;> simp

/-- The bindings that are read are the variables of the environment. -/
lemma mapM_binding_eq_ok_iff {env : Environment} {bs : List Binding} :
    env.mapM binding = .ok bs ↔
      env = bs.map fun b => (Bytes.ofString b.1, Bytes.ofString b.2) := by
  induction env generalizing bs with
  | nil => cases bs <;> simp [pure, Except.pure]
  | cons v env ih =>
      cases bs with
      | nil =>
          cases hv : binding v <;> cases henv : env.mapM binding <;>
            simp [List.mapM_cons, hv, henv, bind, Except.bind, pure, Except.pure]
      | cons b bs =>
          rw [List.map_cons, List.cons.injEq, ← binding_eq_ok_iff, ← ih]
          cases hv : binding v <;> cases henv : env.mapM binding <;>
            simp [List.mapM_cons, hv, henv, bind, Except.bind, pure, Except.pure]

/-- A session at a terminal begins if the environment is text. -/
lemma exists_ofEnvironment_iff {env : Environment} :
    (∃ scope, ofEnvironment env = .ok scope) ↔ env.IsText := by
  rw [ofEnvironment_eq]
  constructor
  · rintro ⟨scope, hscope⟩ v hv
    cases henv : env.mapM binding with
    | error e => simp [henv, Except.map] at hscope
    | ok bs =>
        rw [mapM_binding_eq_ok_iff] at henv
        simp only [henv, List.mem_map] at hv
        obtain ⟨b, -, rfl⟩ := hv
        exact isText_iff.2 ⟨b, binding_eq_ok_iff.2 rfl⟩
  · intro htext
    cases henv : env.mapM binding with
    | error e =>
        obtain ⟨v, hv, he⟩ := exists_of_mapM_eq_error henv
        obtain ⟨b, hb⟩ := isText_iff.1 (htext v hv)
        simp [hb] at he
    | ok bs => exact ⟨ofList bs, rfl⟩

/-- It begins with the names of the environment. -/
lemma isSome_get?_ofEnvironment {env : Environment} {scope : Scope} {x : String}
    (h : ofEnvironment env = .ok scope) : (scope.get? x).isSome = true ↔ env.Sets x := by
  rw [ofEnvironment_eq] at h
  cases henv : env.mapM binding with
  | error e => simp [henv, Except.map] at h
  | ok bs =>
      rw [henv] at h
      obtain rfl := Except.ok.inj h
      rw [mapM_binding_eq_ok_iff] at henv
      rw [isSome_get?_ofList, List.mem_map, Environment.Sets, henv]
      constructor
      · rintro ⟨b, hb, rfl⟩
        exact ⟨Bytes.ofString b.2, List.mem_map_of_mem hb⟩
      · rintro ⟨value, hvalue⟩
        obtain ⟨b, hb, hpair⟩ := List.mem_map.1 hvalue
        exact ⟨b, hb, Bytes.ofString_injective (congrArg Prod.fst hpair)⟩

end Scope

/-! ## Reports by names -/

/-- The names that go on from a head: what is missing of each, and the name as it is shown. -/
def offered (head : String) (shown : String → String) (names : List String) :
    List (String × String) :=
  names.filterMap fun name => (restAfter head name).map fun rest => (rest, shown name)

namespace Report

/-- The report of a completer that has the names of a list. -/
def ofNames (completer head : String) (shown : String → String) (names : List String) : Report :=
  if offered head shown names = [] then ⟨none, "", [], []⟩
  else ⟨some completer, head, offered head shown names, []⟩

variable {completer head : String} {shown : String → String}

lemma candidates_ofNames (names : List String) :
    (ofNames completer head shown names).candidates = offered head shown names := by
  unfold ofNames
  split
  · next hnil => exact hnil.symm
  · rfl

lemma offered_eq_nil_iff {names : List String} :
    offered head shown names = [] ↔ ∀ name ∈ names, ¬ head.toList <+: name.toList := by
  simp [offered, restAfter_eq_none_iff]

/-- Names make no difference where none of them goes on from the head. -/
theorem ofNames_append_iff (completer head : String) (shown : String → String)
    (as bs cs : List String) :
    ofNames completer head shown (as ++ cs) = ofNames completer head shown (as ++ bs ++ cs) ↔
      ∀ name ∈ bs, ¬ head.toList <+: name.toList := by
  rw [← @offered_eq_nil_iff head shown]
  have hoffered : offered head shown (as ++ bs ++ cs)
      = offered head shown as ++ offered head shown bs ++ offered head shown cs := by
    simp [offered]
  constructor
  · intro h
    have hlength := congrArg (fun r => r.candidates.length) h
    simp only [candidates_ofNames, hoffered] at hlength
    simp only [offered, List.filterMap_append, List.length_append] at hlength
    exact List.length_eq_zero_iff.1 (by simp only [offered]; omega)
  · intro h
    have hsame : offered head shown (as ++ cs) = offered head shown (as ++ bs ++ cs) := by
      rw [hoffered, h]
      simp [offered]
    unfold ofNames
    rw [hsame]

end Report

/-! ## What a session reports -/

/-- What is wanted at a position of a line, or at its end. -/
def WantsAt (line : String) (pos : Option Nat) (x : Wanted) : Prop :=
  (parse line.toList).Wants (cursorNode line (pos.getD (byteSize line.toList))) x

variable {line : String} {pos : Option Nat}

/-- One thing is wanted at most. -/
lemma WantsAt.unique {x y : Wanted} (hx : WantsAt line pos x) (hy : WantsAt line pos y) :
    x = y := by
  have hnode := cursorNode_mem_nodes line (pos.getD (byteSize line.toList))
  obtain ⟨k, ctx, hctx, rfl⟩ := (Chunk.wants_iff hnode).1 hx
  obtain ⟨k', ctx', hctx', rfl⟩ := (Chunk.wants_iff hnode).1 hy
  obtain rfl := eq_of_classify hctx hctx'
  obtain rfl := Option.some.inj (hctx.symm.trans hctx')
  rfl

namespace Session

/-- What a session reports of a line. -/
def report (settings : Settings) (line : String) (pos : Option Nat) (s : Session Machine) :
    Except Fault Report :=
  (s.complete Machine.host settings line (pos.getD (byteSize line.toList))).map
    fun r => .ofOutcome r.1

variable {settings : Settings} {head : String} {s t : Session Machine}

lemma report_eq (settings : Settings) (line : String) (pos : Option Nat) (s : Session Machine) :
    s.report settings line pos
      = (LineShell.complete (standardCompleters settings s.machine.list) line
          (pos.getD (byteSize line.toList)) s.snapshot).map Report.ofOutcome := by
  rw [report, complete, Machine.host]
  cases LineShell.complete (standardCompleters settings s.machine.list) line
    (pos.getD (byteSize line.toList)) s.snapshot <;> rfl

lemma map_matching (head : String) (shown : String → String) (style : Option Style)
    (names : List String) :
    (names.filterMap fun name => Candidate.matching name head shown style).map
      (fun c => (c.insert, c.display)) = offered head shown names := by
  simp [offered, List.map_filterMap, Candidate.matching, Function.comp_def]

/-- What one generator makes of names is reported by names. -/
lemma report_of_generate {k : ContextKind} {ctx : Context} {candidates : List Candidate}
    {shown : String → String} {names : List String}
    (hctx : k.classify (cursorNode line (pos.getD (byteSize line.toList))) = some ctx)
    (hgen : (standardCompleter settings s.machine.list k).generate ctx.head s.snapshot []
      = .ok (candidates, []))
    (hnames : candidates.map (fun c => (c.insert, c.display)) = offered ctx.head shown names) :
    s.report settings line pos = .ok (.ofNames (standardCompleter settings s.machine.list k).name
      ctx.head shown names) := by
  rw [report_eq, complete_of_classify hctx, hgen, Report.ofNames, ← hnames]
  by_cases hnil : candidates = []
  · simp [hnil, Except.map, Report.ofOutcome, Outcome.nothing, Outcome.head]
  · simp [hnil, Except.map, Report.ofOutcome, Outcome.head]

/-- Behind a sigil, the names of variables are reported. -/
lemma report_of_reference (h : WantsAt line pos (.reference head)) :
    s.report settings line pos
      = .ok (.ofNames "variable" head ("$" ++ ·) s.snapshot.globals.toList) := by
  obtain ⟨k, ctx, hctx, hk⟩ := (Chunk.wants_iff (cursorNode_mem_nodes _ _)).1 h
  cases k with
  | reference =>
      obtain rfl := Wanted.reference.inj hk
      exact report_of_generate hctx rfl (map_matching _ _ _ _)
  | newCommand | commandHead | newArgument | argument =>
      exact absurd hk (by simp [ContextKind.wanted])

/-- Where a command is wanted, the names of all commands are reported. -/
lemma report_of_command (h : WantsAt line pos (.command head)) :
    s.report settings line pos
      = .ok (.ofNames "command name" head id (s.snapshot.specials.toList
          ++ CommandSource.function.names s.snapshot ++ s.snapshot.externals.toList)) := by
  obtain ⟨k, ctx, hctx, hk⟩ := (Chunk.wants_iff (cursorNode_mem_nodes _ _)).1 h
  have hnames : (commandCandidates settings.commandStyle ctx.head s.snapshot).map
        (fun c => (c.insert, c.display))
      = offered ctx.head id (s.snapshot.specials.toList
          ++ CommandSource.function.names s.snapshot ++ s.snapshot.externals.toList) := by
    rw [← commandNames_eq, commandCandidates, Snapshot.commandNames, List.map_flatMap]
    simp only [map_matching]
    simp [offered, List.filterMap_flatMap]
  cases k with
  | newCommand | commandHead =>
      obtain rfl := Wanted.command.inj hk
      exact report_of_generate hctx rfl hnames
  | reference | newArgument | argument => exact absurd hk (by simp [ContextKind.wanted])

/-- Elsewhere a session reports what the machine has, whatever its names are. -/
lemma report_congr (hmachine : s.machine = t.machine)
    (hreference : ∀ head, ¬ WantsAt line pos (.reference head))
    (hcommand : ∀ head, ¬ WantsAt line pos (.command head)) :
    s.report settings line pos = t.report settings line pos := by
  rw [report_eq, report_eq, hmachine]
  cases hkind : (cursorNode line (pos.getD (byteSize line.toList))).contextKind? with
  | none => rw [complete_of_none hkind, complete_of_none hkind]
  | some k =>
      obtain ⟨ctx, hctx⟩ := Option.isSome_iff_exists.1 (isSome_classify_iff.2 hkind)
      have hwants : WantsAt line pos (k.wanted ctx.head) :=
        (Chunk.wants_iff (cursorNode_mem_nodes _ _)).2 ⟨k, ctx, hctx, rfl⟩
      rw [complete_of_classify hctx, complete_of_classify hctx]
      cases k with
      | reference => exact absurd hwants (hreference _)
      | newCommand | commandHead => exact absurd hwants (hcommand _)
      | newArgument | argument => rfl

end Session

/-! ## Both ways -/

namespace Machine

/-- The session of a terminal once the programs have been looked up. -/
def searchedSession (m : Machine) : Except Fault (Session Machine) :=
  m.startSession.map fun s => s.withExternals (m.commandNames m.searchPath)

/-- At a position of a line, a name that only the environment gives goes on from what is typed. -/
inductive Unseen (m : Machine) (line : String) (pos : Option Nat) : Prop
  | global {head name : String} : WantsAt line pos (.reference head) →
      m.environment.Sets name → head.toList <+: name.toList → m.Unseen line pos
  | function {head name : String} : WantsAt line pos (.command head) →
      m.environment.Sets (Scope.functionName name) → head.toList <+: name.toList →
      m.Unseen line pos

variable {m : Machine} {c : Config} {s : Session Machine} {head : String}

/-- The session of a terminal is that of a line that is completed once, with a scope of its own. -/
lemma exists_of_searchedSession (h : m.searchedSession = .ok s) :
    ∃ scope, Scope.ofEnvironment m.environment = .ok scope ∧ s = m.newSession.withScope scope := by
  unfold searchedSession startSession at h
  cases hscope : Scope.ofEnvironment m.environment with
  | error e => simp [hscope, Except.map] at h
  | ok scope =>
      simp only [hscope, Except.map, Except.ok.injEq] at h
      exact ⟨scope, rfl, h.symm⟩

lemma exists_searchedSession_iff :
    (∃ s, m.searchedSession = .ok s) ↔ m.environment.IsText := by
  rw [← Scope.exists_ofEnvironment_iff, searchedSession, startSession]
  cases Scope.ofEnvironment m.environment <;> simp [Except.map]

lemma mem_globals_iff (h : m.searchedSession = .ok s) (name : String) :
    name ∈ s.snapshot.globals.toList ↔ m.environment.Sets name := by
  obtain ⟨scope, hscope, rfl⟩ := exists_of_searchedSession h
  exact Session.mem_globals_snapshot.trans (Scope.isSome_get?_ofEnvironment hscope)

lemma mem_functionNames_iff (h : m.searchedSession = .ok s) (name : String) :
    name ∈ CommandSource.function.names s.snapshot ↔
      m.environment.Sets (Scope.functionName name) := by
  obtain ⟨scope, hscope, rfl⟩ := exists_of_searchedSession h
  exact Session.mem_functionNames_iff.trans (Scope.isSome_get?_ofEnvironment hscope)

/-- Completed once, a line has no variables. -/
lemma report_of_reference (hwants : WantsAt line pos (.reference head)) :
    m.report c line pos = .ok (.ofNames "variable" head ("$" ++ ·) []) :=
  Session.report_of_reference (s := m.newSession) hwants

/-- Completed once, a line has the same commands but no functions. -/
lemma report_of_command (h : m.searchedSession = .ok s)
    (hwants : WantsAt line pos (.command head)) :
    m.report c line pos = .ok (.ofNames "command name" head id
      (s.snapshot.specials.toList ++ s.snapshot.externals.toList)) := by
  obtain ⟨scope, -, rfl⟩ := exists_of_searchedSession h
  have hnone : CommandSource.function.names m.newSession.snapshot = [] := rfl
  have hreport := @Session.report_of_command line pos (m.settings c) head m.newSession hwants
  rw [hnone, List.append_nil] at hreport
  exact hreport

lemma report_eq_iff_of_reference (h : m.searchedSession = .ok s)
    (hwants : WantsAt line pos (.reference head)) :
    m.report c line pos = s.report (m.settings c) line pos ↔ ¬ m.Unseen line pos := by
  have hsame := Report.ofNames_append_iff "variable" head ("$" ++ ·) [] s.snapshot.globals.toList []
  rw [List.nil_append, List.nil_append, List.append_nil] at hsame
  rw [report_of_reference hwants, Session.report_of_reference hwants, Except.ok.injEq, hsame]
  constructor
  · intro hnone hunseen
    cases hunseen with
    | @global head' name hwants' hsets hprefix =>
        obtain rfl := Wanted.reference.inj (hwants.unique hwants')
        exact hnone name ((mem_globals_iff h name).2 hsets) hprefix
    | function hwants' => exact absurd (hwants.unique hwants') (by simp)
  · intro hseen name hname hprefix
    exact hseen (.global hwants ((mem_globals_iff h name).1 hname) hprefix)

lemma report_eq_iff_of_command (h : m.searchedSession = .ok s)
    (hwants : WantsAt line pos (.command head)) :
    m.report c line pos = s.report (m.settings c) line pos ↔ ¬ m.Unseen line pos := by
  rw [report_of_command h hwants, Session.report_of_command hwants, Except.ok.injEq,
    Report.ofNames_append_iff]
  constructor
  · intro hnone hunseen
    cases hunseen with
    | global hwants' => exact absurd (hwants.unique hwants') (by simp)
    | @function head' name hwants' hsets hprefix =>
        obtain rfl := Wanted.command.inj (hwants.unique hwants')
        exact hnone name ((mem_functionNames_iff h name).2 hsets) hprefix
  · intro hseen name hname hprefix
    exact hseen (.function hwants ((mem_functionNames_iff h name).1 hname) hprefix)

lemma report_eq_iff (h : m.searchedSession = .ok s) :
    m.report c line pos = s.report (m.settings c) line pos ↔ ¬ m.Unseen line pos := by
  by_cases hreference : ∃ head, WantsAt line pos (.reference head)
  · obtain ⟨head, hwants⟩ := hreference
    exact report_eq_iff_of_reference h hwants
  · by_cases hcommand : ∃ head, WantsAt line pos (.command head)
    · obtain ⟨head, hwants⟩ := hcommand
      exact report_eq_iff_of_command h hwants
    · obtain ⟨scope, -, rfl⟩ := exists_of_searchedSession h
      refine iff_of_true ?_ fun hunseen => ?_
      · exact Session.report_congr (s := m.newSession) rfl
          (not_exists.1 hreference) (not_exists.1 hcommand)
      · cases hunseen with
        | global hwants => exact hreference ⟨_, hwants⟩
        | function hwants => exact hcommand ⟨_, hwants⟩

end Machine

/-- What is reported of a line that is completed once, beside what the session of a terminal would
report of it. -/
structure ReportedOnce (m : Machine) (c : Config) (line : String) (pos : Option Nat)
    (s : Session Machine) : Prop where
  /-- The session has the variables of the environment. -/
  globals : ∀ name, name ∈ s.snapshot.globals.toList ↔ m.environment.Sets name
  /-- The two reports are the same, but for names that only the environment gives. -/
  agrees_iff : m.report c line pos = s.report (m.settings c) line pos ↔ ¬ m.Unseen line pos
  reference : ∀ head, WantsAt line pos (.reference head) →
    m.report c line pos = .ok ⟨none, "", [], []⟩ ∧
    s.report (m.settings c) line pos
      = .ok (.ofNames "variable" head ("$" ++ ·) s.snapshot.globals.toList)
  command : ∀ head, WantsAt line pos (.command head) →
    m.report c line pos = .ok (.ofNames "command name" head id
      (s.snapshot.specials.toList ++ s.snapshot.externals.toList)) ∧
    s.report (m.settings c) line pos = .ok (.ofNames "command name" head id
      (s.snapshot.specials.toList ++ CommandSource.function.names s.snapshot
        ++ s.snapshot.externals.toList))

/-- **A line that is completed once is reported on as at a terminal, but for the names that only the
environment gives**: no variable is ever offered then, and no function. -/
theorem report_agrees_iff {m : Machine} (htext : m.environment.IsText) (c : Config) (line : String)
    (pos : Option Nat) :
    ∃ s, m.searchedSession = .ok s ∧ ReportedOnce m c line pos s := by
  obtain ⟨s, hs⟩ := Machine.exists_searchedSession_iff.2 htext
  refine ⟨s, hs, ?_⟩
  exact {
    globals := Machine.mem_globals_iff hs
    agrees_iff := Machine.report_eq_iff hs
    reference := fun _ hwants =>
      ⟨Machine.report_of_reference hwants, Session.report_of_reference hwants⟩
    command := fun _ hwants =>
      ⟨Machine.report_of_command hs hwants, Session.report_of_command hwants⟩ }

/-! ## One variable -/

/-- A machine with nothing on it but a variable in its environment. -/
def homeMachine : Machine :=
  ⟨⟨[]⟩, [], [(Bytes.ofString "HOME", Bytes.ofString "/")], none⟩

lemma isText_homeMachine : homeMachine.environment.IsText := by
  rintro v hv
  obtain rfl := List.mem_singleton.1 hv
  exact ⟨⟨_, Bytes.text?_ofString _⟩, ⟨_, Bytes.text?_ofString _⟩⟩

/-- At the end of the line, the variable is wanted. -/
lemma wantsAt_home : WantsAt "echo $HOM" none (.reference "HOM") := by
  have hname : isVariableChar 'H' = true ∧ isVariableChar 'O' = true ∧
      isVariableChar 'M' = true := by decide
  have hlex : lex "echo $HOM".toList
      = [.primary (.bareword "echo".toList), .space [' '], .primary (.reference "HOM".toList)] := by
    simp [lex_cons, Lexeme.scan, Primary.scan, isTerminator, isSpace, isBareChar, hname]
  have hctx : ContextKind.reference.classify (cursorNode "echo $HOM" 9)
      = some ⟨.reference, 6, "HOM", 9⟩ := by
    rw [cursorNode, parse, hlex]
    decide
  exact (Chunk.wants_iff (cursorNode_mem_nodes _ _)).2 ⟨.reference, _, hctx, rfl⟩

theorem report_agrees_iff_home : homeMachine.environment.IsText ∧
    ∃ s, homeMachine.searchedSession = .ok s ∧
      ReportedOnce homeMachine homeMachine.standardConfig "echo $HOM" none s :=
  ⟨isText_homeMachine, report_agrees_iff isText_homeMachine _ _ _⟩

/-- A terminal offers the variable, and a line that is completed once does not. -/
theorem home_offered_at_terminal_only :
    ∃ s, homeMachine.searchedSession = .ok s ∧
      homeMachine.report homeMachine.standardConfig "echo $HOM" none = .ok ⟨none, "", [], []⟩ ∧
      s.report (homeMachine.settings homeMachine.standardConfig) "echo $HOM" none
        = .ok ⟨some "variable", "HOM", [("E", "$HOME")], []⟩ := by
  refine ⟨homeMachine.newSession.withScope (Scope.empty.set "HOME" "/"), ?_, ?_, ?_⟩
  · simp [homeMachine, Machine.searchedSession, Machine.startSession, Scope.ofEnvironment_eq,
      Scope.binding, Except.map, bind, Except.bind, pure, Except.pure]
    rfl
  · exact Machine.report_of_reference wantsAt_home
  · rw [Session.report_of_reference wantsAt_home]
    rfl

end LineShell
