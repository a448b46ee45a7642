import LineShell.Proofs.Failures
import LineShell.Proofs.Offers
import LineShell.Proofs.QuotedWords
import LineShell.Session

/-!
# Names that are defined

Completion enumerates names, and the evaluator looks them up one at a time.  Functions are variables
under a marker, so they come and go with `fn`, with `set` and with `del`.  After any lines, failing
ones among them, the two still agree on every name: what is offered as a variable can be expanded,
what is offered as a function is called, and nothing else is.

* `Command.leavesBound` — whether a name has a value after a command, if that is known before it.
* `Session.Evaluated` — lines one after another, with all commands that completed on the way;
  `Session.Evaluated.mem_globals_iff` follows a name through them.
* `timesOffered_reference` — a variable is offered once if it has a value.
* `spawn` — a name that no function has is a program.
* `DefinedAlike` — what completion and evaluation agree on in one session.
* **`completion_agrees_with_evaluation`** — they do so after any lines.
-/

namespace LineShell

variable {M : Type}

/-! ## What commands leave bound -/

namespace Command

/-- Whether a name has a value after a command that completes, if it had one before or not. -/
def leavesBound (x : String) (c : Command) (before : Bool) : Bool :=
  match c with
  | set name _ => if x = name then true else before
  | define name _ => if x = Scope.functionName name then true else before
  | delete name => if x = name then false else before
  | _ => before

lemma isSome_get?_effect (c : Command) (scope : Scope) (x : String) :
    ((c.effect scope).get? x).isSome = c.leavesBound x (scope.get? x).isSome := by
  cases c with
  | set name value =>
      rw [effect, leavesBound, Scope.get?_set]
      split <;> rfl
  | define name body =>
      rw [effect, leavesBound, Scope.define, Scope.get?_set]
      split <;> rfl
  | delete name =>
      rw [effect, leavesBound, Scope.get?_remove]
      split <;> rfl
  | nothing | exit | misuse _ _ | unsupported _ | invoke _ _ => rfl

lemma isSome_get?_effects (cs : List Command) (scope : Scope) (x : String) :
    ((cs.foldl (fun scope c => c.effect scope) scope).get? x).isSome
      = cs.foldl (fun bound c => c.leavesBound x bound) (scope.get? x).isSome := by
  induction cs generalizing scope with
  | nil => rfl
  | cons c cs ih => rw [List.foldl_cons, List.foldl_cons, ih, isSome_get?_effect]

end Command

/-! ## Lines one after another -/

lemma Evaluates.scope_eq {launch : Launcher M} {n : Nat} {line : String} {s t : EvalState M}
    {cs : List Command} {e : Except EvalError Flow} (h : Evaluates launch n line s cs e t) :
    t.scope = cs.foldl (fun scope c => c.effect scope) s.scope := by
  obtain ⟨q, hrun, -, rfl⟩ := h
  exact hrun.scope_eq

namespace Session

variable {host : Host M}

/-- The session after lines, whatever comes of each of them. -/
def afterLines (host : Host M) (lines : List String) (s : Session M) : Session M :=
  lines.foldl (fun s line => (s.evaluate host line).2) s

/-- Lines are evaluated one after another, with the commands that complete on the way, those of
lines that fail later among them. -/
inductive Evaluated (host : Host M) : Session M → List String → List Command → Session M → Prop
  | nil (s : Session M) : Evaluated host s [] [] s
  | cons {s u : Session M} {line : String} {lines : List String} {cs ds : List Command}
      {e : Except EvalError Flow} {t : EvalState M} :
      Evaluates host.launch maxCallDepth line s.toEvalState cs e t →
      Evaluated host { s with toEvalState := t } lines ds u →
      Evaluated host s (line :: lines) (cs ++ ds) u

lemma exists_evaluated (host : Host M) (lines : List String) (s : Session M) :
    ∃ cs, Evaluated host s lines cs (s.afterLines host lines) := by
  induction lines generalizing s with
  | nil => exact ⟨[], .nil s⟩
  | cons line lines ih =>
      obtain ⟨cs, hcs⟩ := evalSource_eq_iff.1
        (show evalSource host.launch maxCallDepth line s.toEvalState = (_, _) from rfl)
      obtain ⟨ds, hds⟩ := ih (s.evaluate host line).2
      exact ⟨cs ++ ds, .cons hcs hds⟩

/-- The scope is what the commands on the way make of the first. -/
lemma Evaluated.scope_eq {s t : Session M} {lines : List String} {cs : List Command}
    (h : Evaluated host s lines cs t) :
    t.scope = cs.foldl (fun scope c => c.effect scope) s.scope := by
  induction h with
  | nil s => rfl
  | cons hline _ ih => rw [ih, hline.scope_eq, List.foldl_append]

lemma mem_globals_snapshot {s : Session M} {x : String} :
    x ∈ s.snapshot.globals ↔ (s.scope.get? x).isSome = true := by
  rw [snapshot, NameSet.mem_ofList, Scope.mem_names_iff]

/-- The last command about a name decides whether completion sees it. -/
lemma Evaluated.mem_globals_iff {s t : Session M} {lines : List String} {cs : List Command}
    (h : Evaluated host s lines cs t) (x : String) :
    x ∈ t.snapshot.globals ↔
      cs.foldl (fun bound c => c.leavesBound x bound) (s.scope.get? x).isSome = true := by
  rw [mem_globals_snapshot, h.scope_eq, Command.isSome_get?_effects]

/-- A function is offered exactly if its marked name has a value. -/
lemma mem_functionNames_iff {s : Session M} {n : String} :
    n ∈ CommandSource.function.names s.snapshot ↔ (s.scope.function? n).isSome = true := by
  rw [Scope.function?, ← mem_globals_snapshot, NameSet.mem_def, CommandSource.names,
    List.mem_filterMap]
  constructor
  · rintro ⟨name, hname, hrest⟩
    rwa [restAfter_eq_some_iff.1 hrest] at hname
  · intro hname
    exact ⟨_, hname, restAfter_eq_some_iff.2 rfl⟩

end Session

/-! ## Variables -/

/-- How often a name is offered behind a head. -/
def Outcome.timesOffered (o : Outcome) (head name : String) : Nat :=
  o.candidates.countP fun c => c.fullName head = name

lemma parse_reference {x : List Char} (hx : ∀ c ∈ x, isVariableChar c = true) :
    parse ('$' :: x) = ⟨[.form ⟨[.word ⟨[.reference x]⟩]⟩]⟩ := by
  have hmunched : ∀ p ∈ [Primary.reference x], ∀ rest, Stops isVariableChar rest →
      p.Munched rest := by
    intro p hp rest hrest
    obtain rfl := List.mem_singleton.1 hp
    exact ⟨hx, hrest⟩
  simpa [Primary.text, spaced] using parse_spaced (List.cons_ne_nil _ _) hmunched

/-- At the end of a reference, a variable is asked for. -/
lemma wants_reference {x : String} (hx : ∀ c ∈ x.toList, isVariableChar c = true) :
    (parse ("$" ++ x).toList).Wants (cursorNode ("$" ++ x) (byteSize ("$" ++ x).toList))
      (.reference x) := by
  have hline : ("$" ++ x).toList = '$' :: x.toList := by simp
  rw [cursorNode, Nat.min_self, hline, parse_reference hx]
  have hnode : (Chunk.mk [.form ⟨[.word ⟨[.reference x.toList]⟩]⟩]).leafAt
        (byteSize ('$' :: x.toList))
      = .primary ⟨1, 0, 0, ⟨[.word ⟨[.reference x.toList]⟩]⟩⟩
          ⟨2, 0, 0, ⟨[.reference x.toList]⟩⟩ ⟨3, 0, 0, .reference x.toList⟩ := by
    simp [Chunk.leafAt, Chunk.placed, arrange, ChunkPart.leafAt, Form.placed, FormPart.leafAt,
      Compound.placed, Placed.touches, Placed.stop, Placed.withItem, Piece.text, ChunkPart.text,
      Form.text, FormPart.text, Compound.text, Primary.text]
  rw [hnode]
  have hwants := Chunk.Wants.reference (c := ⟨[.form ⟨[.word ⟨[.reference x.toList]⟩]⟩]⟩)
    (n := .primary ⟨1, 0, 0, ⟨[.word ⟨[.reference x.toList]⟩]⟩⟩
      ⟨2, 0, 0, ⟨[.reference x.toList]⟩⟩ ⟨3, 0, 0, .reference x.toList⟩) rfl rfl
  rwa [String.ofList_toList] at hwants

/-- A name that goes on from the head is offered as often as it stands among the names. -/
lemma Offers.timesOffered_eq {o : Outcome} {head name : String} {shown : String → String}
    {names : List String} (h : Offers o.candidates "" head shown names)
    (hhead : head.toList <+: name.toList) : o.timesOffered head name = names.count name := by
  have hfull := congrArg (List.map Prod.fst) h
  simp only [List.map_map, Function.comp_def, String.empty_append, List.map_id'] at hfull
  have hcount : o.timesOffered head name
      = (o.candidates.map fun c => c.fullName head).count name := by
    rw [Outcome.timesOffered, List.count_eq_countP, List.countP_map]
    rfl
  rw [hcount, hfull, List.count_filter (by simpa using hhead)]

lemma NameSet.nodup_toList (s : NameSet) : s.toList.Nodup :=
  s.sorted.imp fun hlt => String.ne_of_lt hlt

lemma timesOffered_reference (settings : Settings) (list : Lister) (snapshot : Snapshot)
    {n p : String} (hn : ∀ c ∈ n.toList, isVariableChar c = true) (hp : p.toList <+: n.toList) :
    ∃ o, complete (standardCompleters settings list) ("$" ++ p) (byteSize ("$" ++ p).toList)
        snapshot = .ok o ∧
      o.timesOffered p n = if n ∈ snapshot.globals.toList then 1 else 0 := by
  have hpchars : ∀ c ∈ p.toList, isVariableChar c = true := fun c hc => hn c (hp.subset hc)
  obtain ⟨o, ho, -, hoffers⟩ := (offersExactly settings list ("$" ++ p)
    (byteSize ("$" ++ p).toList) snapshot).reference p (wants_reference hpchars)
  refine ⟨o, ho, ?_⟩
  rw [hoffers.timesOffered_eq hp, snapshot.globals.nodup_toList.count]

/-- A reference by itself is a word that stands for the value of its variable. -/
lemma Compound.expand_reference (scope : Scope) {w : Compound} {x : String}
    (h : w.primaries = [.reference x.toList]) :
    w.expand scope = match scope.get? x with
      | some v => .ok v
      | none => .error (.undefinedVariable x) := by
  obtain ⟨primaries⟩ := w
  obtain rfl : primaries = [.reference x.toList] := h
  cases hget : scope.get? x with
  | some v => exact Compound.expand_singleton (Primary.expand_reference hget)
  | none =>
      simp [expand, Primary.expand, Primary.kind, Primary.value, hget, Except.map, bind,
        Except.bind]

/-- After a reference, completion and expansion know of the same variables. -/
lemma timesOffered_iff_expand (settings : Settings) (list : Lister) (s : Session M) {n p : String}
    (hn : ∀ c ∈ n.toList, isVariableChar c = true) (hp : p.toList <+: n.toList) :
    ∃ o, complete (standardCompleters settings list) ("$" ++ p) (byteSize ("$" ++ p).toList)
        s.snapshot = .ok o ∧
      o.timesOffered p n ≤ 1 ∧
      ∀ w : Compound, w.primaries = [.reference n.toList] →
        (o.timesOffered p n = 1 ↔ ∃ v, w.expand s.scope = .ok v) ∧
        (o.timesOffered p n = 0 ↔ w.expand s.scope = .error (.undefinedVariable n)) := by
  obtain ⟨o, ho, htimes⟩ := timesOffered_reference settings list s.snapshot hn hp
  refine ⟨o, ho, by rw [htimes]; split <;> omega, fun w hw => ?_⟩
  have hglobals : n ∈ s.snapshot.globals.toList ↔ (s.scope.get? n).isSome = true :=
    Session.mem_globals_snapshot
  rw [htimes, Compound.expand_reference s.scope hw]
  cases hget : s.scope.get? n with
  | some v =>
      rw [if_pos (hglobals.2 (by rw [hget]; rfl))]
      simp
  | none =>
      rw [if_neg fun hmem => by simp [hget] at hglobals; exact hglobals hmem]
      simp

/-! ## Functions -/

/-- Starts a program. -/
def spawn (launch : Launcher M) (name : String) (args : List String) : Evaluation M := fun s =>
  match launch s.machine name args with
  | .ok m => (.ok .goOn, { s with machine := m })
  | .error cause => Evaluation.fail (.spawnFailed name cause) s

namespace Form

variable {launch : Launcher M} {s : EvalState M} {f : Form} {name : String} {args : List String}

/-- The first word of a form is a name that the shell has no use for itself. -/
structure Invokes (scope : Scope) (f : Form) (name : String) (args : List String) : Prop where
  expand : f.expand scope = .ok (name :: args)
  ne_exit : name ≠ "exit"
  not_reserved : name ∉ reservedNames

lemma Invokes.command_eq (h : f.Invokes s.scope name args) :
    f.command s.scope = .ok (.invoke name args) :=
  command_eq_ok_iff.2 ⟨_, h.expand,
    Command.ofWords_eq_invoke_iff.2 ⟨rfl, h.ne_exit, h.not_reserved⟩⟩

lemma Invokes.run_of_some {body : String} (h : f.Invokes s.scope name args)
    (hbody : s.scope.function? name = some body) (call : String → Evaluation M) :
    f.run launch call s = call body s :=
  Calls.run_eq (calls_iff.2 ⟨name, args, h.command_eq, hbody⟩)

lemma Invokes.run_of_none (h : f.Invokes s.scope name args)
    (hbody : s.scope.function? name = none) (call : String → Evaluation M) :
    f.run launch call s = spawn launch name args s := by
  rw [run_of_command h.command_eq]
  cases hlaunch : launch s.machine name args <;> simp [Command.run, spawn, hbody, hlaunch]

/-- Only a function leaves what happens to whoever evaluates its body. -/
lemma Invokes.run_eq_call_iff (h : f.Invokes s.scope name args) :
    (∃ body, ∀ call : String → Evaluation M, f.run launch call s = call body s) ↔
      (s.scope.function? name).isSome = true := by
  cases hbody : s.scope.function? name with
  | some body => exact ⟨fun _ => rfl, fun _ => ⟨body, h.run_of_some hbody⟩⟩
  | none =>
      refine ⟨?_, fun hsome => absurd hsome (by simp)⟩
      rintro ⟨body, hcall⟩
      have hexit : f.run launch (fun _ => .done .exit) s = (.ok .exit, s) := hcall _
      have hgoOn : f.run launch (fun _ => .done .goOn) s = (.ok .goOn, s) := hcall _
      rw [h.run_of_none hbody] at hexit hgoOn
      exact absurd (hexit.symm.trans hgoOn) (by simp)

lemma Invokes.run_eq_spawn_iff (h : f.Invokes s.scope name args) :
    (∀ call : String → Evaluation M, f.run launch call s = spawn launch name args s) ↔
      ¬ (s.scope.function? name).isSome = true := by
  cases hbody : s.scope.function? name with
  | none => exact ⟨fun _ => by simp, fun _ => h.run_of_none hbody⟩
  | some body =>
      refine ⟨fun hspawn => ?_, fun hnone => absurd rfl hnone⟩
      have hexit : f.run launch (fun _ => .done .exit) s = (.ok .exit, s) := h.run_of_some hbody _
      have hgoOn : f.run launch (fun _ => .done .goOn) s = (.ok .goOn, s) := h.run_of_some hbody _
      rw [hspawn] at hexit hgoOn
      exact absurd (hexit.symm.trans hgoOn) (by simp)

end Form

/-! ## One session -/

/-- Completion and evaluation agree on which names are defined. -/
structure DefinedAlike (settings : Settings) (list : Lister) (launch : Launcher M)
    (s : Session M) : Prop where
  /-- A reference on a line by itself is the one word of the line. -/
  alone : ∀ n : String, (∀ c ∈ n.toList, isVariableChar c = true) →
    ∃ f w, (parse ("$" ++ n).toList).parts = [.form f] ∧ f.words = [w] ∧ w.text = '$' :: n.toList
  /-- With any front part of its name typed, a variable is offered, once, where a reference to it
  stands for a value, on whatever line. -/
  references : ∀ n p : String, (∀ c ∈ n.toList, isVariableChar c = true) → p.toList <+: n.toList →
    ∃ o, complete (standardCompleters settings list) ("$" ++ p) (byteSize ("$" ++ p).toList)
        s.snapshot = .ok o ∧
      o.timesOffered p n ≤ 1 ∧
      ∀ line f w, .form f ∈ (parse line).parts → w ∈ f.words → w.text = '$' :: n.toList →
        (o.timesOffered p n = 1 ↔ ∃ v, w.expand s.scope = .ok v) ∧
        (o.timesOffered p n = 0 ↔ w.expand s.scope = .error (.undefinedVariable n))
  functions : ∀ n,
    n ∈ CommandSource.function.names s.snapshot ↔ (s.scope.function? n).isSome = true
  /-- The body of a function is evaluated, whatever it is, and where calls may still be made it is
  evaluated as a line. -/
  called : ∀ f n args, Form.Invokes s.scope f n args →
    (n ∈ CommandSource.function.names s.snapshot ↔
      ∃ body, ∀ call, f.run launch call s.toEvalState = call body s.toEvalState) ∧
    ∀ body, s.scope.function? n = some body → ∀ k,
      f.run launch (callFunction launch (k + 1)) s.toEvalState
        = evalSource launch k body s.toEvalState
  /-- Any other name is taken for a program. -/
  spawned : ∀ f n args, Form.Invokes s.scope f n args →
    (n ∉ CommandSource.function.names s.snapshot ↔
      ∀ call, f.run launch call s.toEvalState = spawn launch n args s.toEvalState)

lemma definedAlike (settings : Settings) (list : Lister) (launch : Launcher M) (s : Session M) :
    DefinedAlike settings list launch s where
  alone n hn := by
    have hline : ("$" ++ n).toList = '$' :: n.toList := by simp
    rw [hline, parse_reference hn]
    refine ⟨_, ⟨[.reference n.toList]⟩, rfl, rfl, ?_⟩
    simp [Compound.text, Primary.text]
  references n p hn hp := by
    obtain ⟨o, ho, hle, hexpand⟩ := timesOffered_iff_expand settings list s hn hp
    refine ⟨o, ho, hle, fun line f w hf hw htext => hexpand w ?_⟩
    exact primaries_of_text hf hw htext hn
  functions n := Session.mem_functionNames_iff
  called f n args h := by
    rw [Session.mem_functionNames_iff, h.run_eq_call_iff]
    exact ⟨Iff.rfl, fun body hbody k => h.run_of_some hbody _⟩
  spawned f n args h := by
    rw [Session.mem_functionNames_iff, h.run_eq_spawn_iff]

/-- **What completion offers is what is defined**: after any lines, the names that are offered as
variables are those that references expand to values, and the names that are offered as functions
are those that are called. -/
theorem completion_agrees_with_evaluation (host : Host M) (lines : List String) (s : Session M) :
    (∃ cs, Session.Evaluated host s lines cs (s.afterLines host lines) ∧
      ∀ x, x ∈ (s.afterLines host lines).snapshot.globals ↔
        cs.foldl (fun bound c => c.leavesBound x bound) (s.scope.get? x).isSome = true) ∧
    ∀ settings list, DefinedAlike settings list host.launch (s.afterLines host lines) := by
  obtain ⟨cs, hcs⟩ := Session.exists_evaluated host lines s
  exact ⟨⟨cs, hcs, hcs.mem_globals_iff⟩,
    fun settings list => definedAlike settings list host.launch _⟩

end LineShell
