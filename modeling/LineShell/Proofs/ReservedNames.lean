import LineShell.Proofs.StoredBodies

/-!
# Reserved names

Some names are the shell's own: a row of words that begins with one of them runs without a look at
functions and programs.  Completion offers such names from a list that is kept elsewhere.  The two
agree on every name but `exit`, which leaves the shell and is not on the list, so that it is offered
only where a function or a program happens to have that name, and neither is then run.

* `RunsAlone` — functions and programs have no part in what a row of words does.
* `runsAlone_iff` — the names for which they have none.
* `wants_command` — a line of one bare word asks for commands.
* `Session.exists_timesOffered` — how often the name of a command is offered.
* `ReservedAlike` — what the evaluator and completion make of the names of one session.
* **`reserved_or_exit`** — they agree on all names but one, in every session.
-/

namespace LineShell

variable {M : Type}

/-! ## Rows of words -/

/-- Whatever the bodies of functions do and whatever programs there are, a row of words does the
same. -/
def RunsAlone (s : EvalState M) (words : List String) : Prop :=
  ∀ (launch launch' : Launcher M) (call call' : String → Evaluation M),
    (Command.ofWords words).run launch call s = (Command.ofWords words).run launch' call' s

namespace Command

variable {launch : Launcher M} {call : String → Evaluation M} {s : EvalState M} {name : String}
  {args : List String}

lemma ofWords_of_free (hexit : name ≠ "exit") (hreserved : name ∉ reservedNames) :
    ofWords (name :: args) = invoke name args :=
  ofWords_eq_invoke_iff.2 ⟨rfl, hexit, hreserved⟩

lemma run_of_function {body : String} (hexit : name ≠ "exit") (hreserved : name ∉ reservedNames)
    (hbody : s.scope.function? name = some body) :
    (ofWords (name :: args)).run launch call s = call body s := by
  simp [ofWords_of_free hexit hreserved, run, hbody]

lemma run_of_program (hexit : name ≠ "exit") (hreserved : name ∉ reservedNames)
    (hnone : s.scope.function? name = none) :
    (ofWords (name :: args)).run launch call s = spawn launch name args s := by
  rw [ofWords_of_free hexit hreserved]
  cases hlaunch : launch s.machine name args <;> simp [run, spawn, hnone, hlaunch]

/-- Only an invocation asks for a function or a program. -/
lemma run_congr {c : Command} (h : ∀ name args, c ≠ invoke name args)
    (launch launch' : Launcher M) (call call' : String → Evaluation M) :
    c.run launch call s = c.run launch' call' s := by
  cases c with
  | invoke name args => exact absurd rfl (h name args)
  | nothing | exit | set _ _ | define _ _ | delete _ | misuse _ _ | unsupported _ => rfl

end Command

section words

variable {s : EvalState M} {name : String} {args : List String}

/-- A function is called for what it does, and a program is started for what it does. -/
lemma not_runsAlone_of_free (hexit : name ≠ "exit") (hreserved : name ∉ reservedNames) :
    ¬ RunsAlone s (name :: args) := by
  intro halone
  cases hbody : s.scope.function? name with
  | some body =>
      have hsame := halone (fun _ _ _ => .error .notFound) (fun _ _ _ => .error .notFound)
        (fun _ => .done .goOn) (fun _ => .done .exit)
      rw [Command.run_of_function hexit hreserved hbody,
        Command.run_of_function hexit hreserved hbody] at hsame
      simp [Evaluation.done] at hsame
  | none =>
      have hsame := halone (fun _ _ _ => .error .notFound) (fun _ _ _ => .error .badFormat)
        (fun _ => .done .goOn) (fun _ => .done .goOn)
      rw [Command.run_of_program hexit hreserved hbody,
        Command.run_of_program hexit hreserved hbody] at hsame
      simp [spawn, Evaluation.fail] at hsame

/-- The names that the evaluator keeps for itself. -/
theorem runsAlone_iff :
    RunsAlone s (name :: args) ↔ name ∈ reservedNames ∨ name = "exit" := by
  constructor
  · intro halone
    by_contra hfree
    rw [not_or] at hfree
    exact not_runsAlone_of_free hfree.2 hfree.1 halone
  · intro hname launch launch' call call'
    refine Command.run_congr ?_ launch launch' call call'
    intro head rest hinvoke
    obtain ⟨hwords, hexit, hreserved⟩ := Command.ofWords_eq_invoke_iff.1 hinvoke
    obtain ⟨rfl, -⟩ := List.cons.inj hwords
    rcases hname with hname | hname
    · exact hreserved hname
    · exact hexit hname

end words

/-! ## What is offered -/

lemma exit_notMem_reservedNames : "exit" ∉ reservedNames := by decide

/-- The names of the shell's own are bare words. -/
lemma isBareChar_of_reserved {name : String} (hname : name ∈ reservedNames ∨ name = "exit") :
    ∀ c ∈ name.toList, isBareChar c = true := by
  have hnames : ∀ n ∈ "exit" :: reservedNames, n.toList.all isBareChar = true := by decide
  refine List.all_eq_true.1 (hnames name ?_)
  rw [List.mem_cons]
  exact hname.symm

/-- At the end of a line that is empty or one bare word, a command is asked for. -/
lemma wants_command {p : String} (hp : ∀ c ∈ p.toList, isBareChar c = true) :
    (parse p.toList).Wants (cursorNode p (byteSize p.toList)) (.command p) := by
  by_cases hne : p = ""
  · subst hne
    have hroot : (cursorNode "" (byteSize "".toList)).id = 0 := by
      simp [cursorNode, parse, lex_nil, Chunk.leafAt]
      rfl
    exact .newCommand (.inl hroot)
  · have hparse := parse_bareWords (List.cons_ne_nil p []) (by simpa using ⟨hne, hp⟩)
    rw [String.intercalate_singleton] at hparse
    have hctx : ContextKind.commandHead.classify (cursorNode p (byteSize p.toList))
        = some (.ofNode .commandHead (cursorNode p (byteSize p.toList)) p.toList) := by
      rw [cursorNode, Nat.min_self, hparse]
      simp [Chunk.leafAt, Chunk.placed, arrange, ChunkPart.leafAt, Form.placed, FormPart.leafAt,
        Compound.placed, Placed.touches, Placed.stop, Placed.withItem, Piece.text, ChunkPart.text,
        Form.text, FormPart.text, Compound.text, Primary.text, spaced, bareSegment,
        ContextKind.classify, Context.commandHead, Node.simpleCompound]
    refine (Chunk.wants_iff (cursorNode_mem_nodes _ _)).2 ⟨.commandHead, _, hctx, ?_⟩
    simp [ContextKind.wanted, Context.ofNode]

namespace Session

lemma mem_specials_snapshot {s : Session M} {name : String} :
    name ∈ s.snapshot.specials ↔ name ∈ reservedNames :=
  NameSet.mem_ofList

/-- Where a command is wanted, a name that goes on from what is typed is offered once if it is on
the list, and once more for a function and for a program with that name. -/
lemma exists_timesOffered (settings : Settings) (list : Lister) (s : Session M) {line : String}
    {pos : Nat} {head : String}
    (hwants : (parse line.toList).Wants (cursorNode line pos) (.command head)) :
    ∃ o, LineShell.complete (standardCompleters settings list) line pos s.snapshot = .ok o ∧
      ∀ name : String, head.toList <+: name.toList →
        o.timesOffered head name = (if name ∈ reservedNames then 1 else 0)
          + (CommandSource.function.names s.snapshot).count name
          + s.snapshot.externals.toList.count name := by
  obtain ⟨o, ho, -, hoffers⟩ :=
    (offersExactly settings list line pos s.snapshot).command head hwants
  refine ⟨o, ho, ?_⟩
  intro name hstart
  have hspecials : s.snapshot.specials.toList.count name
      = if name ∈ reservedNames then 1 else 0 := by
    rw [s.snapshot.specials.nodup_toList.count]
    simp only [← NameSet.mem_def, mem_specials_snapshot]
  rw [hoffers.timesOffered_eq hstart, List.count_append, List.count_append, hspecials]

end Session

/-! ## One session -/

/-- The evaluator and completion agree on what is reserved, but for `exit`. -/
structure ReservedAlike (s : Session M) : Prop where
  /-- A row of words is the shell's own by its first word alone. -/
  runsAlone : ∀ name args,
    RunsAlone s.toEvalState (name :: args) ↔ name ∈ s.snapshot.specials ∨ name = "exit"
  exit_not_special : "exit" ∉ s.snapshot.specials
  /-- Nothing but leaving comes of `exit`, even where a function has that name. -/
  exit_leaves : ∀ args launch call,
    (Command.ofWords ("exit" :: args)).run launch call s.toEvalState = (.ok .exit, s.toEvalState)
  /-- With any front part of it typed, a name on the list is offered, and `exit` only as often as
  there are functions and programs with that name. -/
  offered : ∀ settings list name p, name ∈ s.snapshot.specials ∨ name = "exit" →
    p.toList <+: name.toList →
      ∃ o, complete (standardCompleters settings list) p (byteSize p.toList) s.snapshot = .ok o ∧
        (name ∈ s.snapshot.specials → 1 ≤ o.timesOffered p name) ∧
        (name = "exit" → o.timesOffered p name
          = (CommandSource.function.names s.snapshot).count name
            + s.snapshot.externals.toList.count name)
  /-- Any other name is that of a function where one has it, -/
  called : ∀ name args body, name ∉ s.snapshot.specials → name ≠ "exit" →
    s.scope.function? name = some body →
      ∀ launch call, (Command.ofWords (name :: args)).run launch call s.toEvalState
        = call body s.toEvalState
  /-- and that of a program otherwise. -/
  spawned : ∀ name args, name ∉ s.snapshot.specials → name ≠ "exit" →
    s.scope.function? name = none →
      ∀ launch call, (Command.ofWords (name :: args)).run launch call s.toEvalState
        = spawn launch name args s.toEvalState

/-- **Completion lists the names that the evaluator keeps for itself, all but one**: in every
session, and so after any lines, a row of words runs without functions and programs exactly if it
begins with a name on the list or with `exit`. -/
theorem reserved_or_exit (s : Session M) : ReservedAlike s := by
  refine ⟨?_, ?_, ?_, ?_, ?_, ?_⟩
  · intro name args
    rw [runsAlone_iff, Session.mem_specials_snapshot]
  · rw [Session.mem_specials_snapshot]
    exact exit_notMem_reservedNames
  · intro args launch call
    rfl
  · intro settings list name p hname hstart
    rw [Session.mem_specials_snapshot] at hname ⊢
    have hbare : ∀ c ∈ p.toList, isBareChar c = true := fun c hc =>
      isBareChar_of_reserved hname c (hstart.subset hc)
    obtain ⟨o, ho, htimes⟩ := s.exists_timesOffered settings list (wants_command hbare)
    refine ⟨o, ho, ?_, ?_⟩
    · intro hreserved
      rw [htimes name hstart, if_pos hreserved]
      omega
    · rintro rfl
      rw [htimes "exit" hstart, if_neg exit_notMem_reservedNames, Nat.zero_add]
  · intro name args body hspecial hexit hbody launch call
    rw [Session.mem_specials_snapshot] at hspecial
    exact Command.run_of_function hexit hspecial hbody
  · intro name args hspecial hexit hnone launch call
    rw [Session.mem_specials_snapshot] at hspecial
    exact Command.run_of_program hexit hspecial hnone

/-- In a new session `exit` runs by itself, and it is neither on the list nor offered. -/
theorem exit_runs_unlisted :
    RunsAlone (Session.start ()).toEvalState ["exit"] ∧
      "exit" ∉ (Session.start ()).snapshot.specials ∧
      ∀ settings list, ∃ o, complete (standardCompleters settings list) "exi" 3
          (Session.start ()).snapshot = .ok o ∧
        o.timesOffered "exi" "exit" = 0 := by
  refine ⟨runsAlone_iff.2 (.inr rfl), ?_, ?_⟩
  · rw [Session.mem_specials_snapshot]
    exact exit_notMem_reservedNames
  · intro settings list
    obtain ⟨o, ho, htimes⟩ := (Session.start ()).exists_timesOffered settings list
      (wants_command (p := "exi") (List.all_eq_true.1 (by decide)))
    refine ⟨o, ho, ?_⟩
    rw [htimes "exit" (by decide), if_neg exit_notMem_reservedNames]
    rfl

end LineShell
