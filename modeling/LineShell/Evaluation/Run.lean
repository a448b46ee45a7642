import LineShell.Evaluation.Command

/-!
# Evaluation

The forms of a line run in order, each under the scope that the ones before it left.  Calling a
function evaluates its body as a line, one call deeper, and the depth of calls is bounded.

What programs act on is left open: a type `M` and a `Launcher` that says what a program makes of
it.

* `EvalState` — the scope and what programs act on; an `Evaluation` is a step from state to state
  that ends in a `Flow` or an error.
* `Command.run`, `runForms` — one command, and a row of forms; the calling of functions is
  a parameter.
* `callFunction` — the body of a function, given how many calls may still be made.
* **`evalSource`**, `evalLine` — a line.
* `runForms_append` — a row of forms runs as its first part and then, if that goes on, its second.
-/

namespace LineShell

/-- The greatest number of functions that may be active at a time. -/
def maxCallDepth : Nat := 64

/-- What the shell does after a line that did not fail. -/
inductive Flow where
  | goOn
  | exit
  deriving DecidableEq, Repr

/-- What starting a program makes of `M`, or why it cannot be started. -/
abbrev Launcher (M : Type) := M → String → List String → Except FileError M

/-- What evaluation changes. -/
structure EvalState (M : Type) where
  scope : Scope
  machine : M

/-- A step from a state to a result and the state after it.  The state is also there after
a failure. -/
abbrev Evaluation (M : Type) := EvalState M → Except EvalError Flow × EvalState M

variable {M : Type}

namespace Evaluation

def fail (e : EvalError) : Evaluation M :=
  fun s => (.error e, s)

def done (flow : Flow) : Evaluation M :=
  fun s => (.ok flow, s)

def changing (change : Scope → Scope) : Evaluation M :=
  fun s => (.ok .goOn, { s with scope := change s.scope })

/-- One evaluation and, only where it goes on, another in the state that it leaves. -/
def andThen (first second : Evaluation M) : Evaluation M := fun s =>
  match first s with
  | (.ok .goOn, s) => second s
  | stopped => stopped

theorem andThen_of_goOn {first : Evaluation M} {s t : EvalState M} (h : first s = (.ok .goOn, t))
    (second : Evaluation M) : andThen first second s = second t := by
  simp [andThen, h]

theorem andThen_of_ne {first : Evaluation M} {s : EvalState M} (h : (first s).1 ≠ .ok .goOn)
    (second : Evaluation M) : andThen first second s = first s := by
  unfold andThen
  split
  · next h' => exact absurd (congrArg Prod.fst h') h
  · rfl

@[simp] theorem done_andThen (e : Evaluation M) : andThen (done .goOn) e = e := rfl

@[simp] theorem andThen_done (e : Evaluation M) : andThen e (done .goOn) = e := by
  funext s
  unfold andThen
  split
  · next h => exact h.symm
  · rfl

theorem andThen_assoc (a b c : Evaluation M) :
    andThen (andThen a b) c = andThen a (andThen b c) := by
  funext s
  by_cases h : (a s).1 = .ok .goOn
  · have ha : a s = (.ok .goOn, (a s).2) := by rw [← h]
    rw [andThen_of_goOn ha, andThen, andThen_of_goOn ha]
    rfl
  · have hb := andThen_of_ne h b
    rw [andThen_of_ne h, andThen_of_ne (hb ▸ h), hb]

end Evaluation

/-- Runs one command; `call` evaluates the body of a function.  A name is looked for among the
functions first, and is a program otherwise. -/
def Command.run (launch : Launcher M) (call : String → Evaluation M) : Command → Evaluation M
  | .nothing => .done .goOn
  | .exit => .done .exit
  | .set name value => .changing (·.set name value)
  | .define name body => .changing (·.define name body)
  | .delete name => fun s =>
    match s.scope.get? name with
    | some _ => Evaluation.changing (·.remove name) s
    | none => Evaluation.fail (.undefinedVariable name) s
  | .misuse form usage => .fail (.badArguments form usage)
  | .unsupported form => .fail (.unsupported form)
  | .invoke name args => fun s =>
    match s.scope.function? name with
    | some body => call body s
    | none =>
      match launch s.machine name args with
      | .ok m => (.ok .goOn, { s with machine := m })
      | .error cause => Evaluation.fail (.spawnFailed name cause) s

/-- Runs one form: its words are expanded under the scope at that moment, and nothing happens
before all of them are. -/
def Form.run (launch : Launcher M) (call : String → Evaluation M) (f : Form) : Evaluation M :=
  fun s =>
    match f.expand s.scope with
    | .ok words => (Command.ofWords words).run launch call s
    | .error e => Evaluation.fail e s

/-- Runs forms in order, up to the first that exits or fails. -/
def runForms (launch : Launcher M) (call : String → Evaluation M) : List Form → Evaluation M
  | [] => .done .goOn
  | f :: fs => .andThen (f.run launch call) (runForms launch call fs)

/-- Calls a function, given its body, where at most so many functions may be active that are not
yet: the body is evaluated as a line. -/
def callFunction (launch : Launcher M) : Nat → String → Evaluation M
  | 0, _ => .fail (.recursionLimit maxCallDepth)
  | n + 1, body => runForms launch (callFunction launch n) (parse body.toList).forms

/-- **Evaluates a line** where at most `n` functions may be called within each other. -/
def evalSource (launch : Launcher M) (n : Nat) (line : String) : Evaluation M :=
  runForms launch (callFunction launch n) (parse line.toList).forms

def evalLine (launch : Launcher M) (line : String) : Evaluation M :=
  evalSource launch maxCallDepth line

/-- Calling a function evaluates its body with one call less to make. -/
theorem callFunction_succ (launch : Launcher M) (n : Nat) (body : String) :
    callFunction launch (n + 1) body = evalSource launch n body := rfl

theorem runForms_append (launch : Launcher M) (call : String → Evaluation M) (fs gs : List Form) :
    runForms launch call (fs ++ gs)
      = .andThen (runForms launch call fs) (runForms launch call gs) := by
  induction fs with
  | nil => rfl
  | cons f fs ih => rw [List.cons_append, runForms, runForms, ih, Evaluation.andThen_assoc]

end LineShell
