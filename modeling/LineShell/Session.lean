import LineShell.Completion.Suggestion
import LineShell.Evaluation.Run
import LineShell.Launch

/-!
# Sessions

What the shell remembers from line to line: the scope, the known commands, and the tips that wait
to be shown.

* `Host` — what a session needs of the machine it runs on.
* `Session` — the state; `Session.snapshot` is what completion may see of it.
* `Session.evaluate`, `Session.complete`, `Session.suggest`, `Session.takeTips` — what can be done
  with it.
* **`Session.answer`** — one request of any of these kinds, and the session after it.
-/

namespace LineShell

/-- What a session needs of the machine it runs on. -/
structure Host (M : Type) where
  launch : Launcher M
  list : M → Lister

def Machine.host : Host Machine :=
  ⟨Machine.launch, Machine.list⟩

/-- What a completion request is made from.  It takes a moment, so that the caller has to wait. -/
inductive Caller where
  | thread
  /-- One of several workers of a pool. -/
  | pool
  /-- The only worker there is, which must not wait. -/
  | soleWorker
  deriving DecidableEq, Repr

def Caller.canWait : Caller → Bool
  | thread | pool => true
  | soleWorker => false

/-- What the shell remembers. -/
structure Session (M : Type) extends EvalState M where
  /-- The programs that completion knows of. -/
  externals : NameSet
  /-- Short messages that wait to be shown. -/
  tips : List String

namespace Session

variable {M : Type}

def start (machine : M) : Session M :=
  ⟨⟨.empty, machine⟩, .empty, []⟩

/-- What completion may see of a session. -/
def snapshot (s : Session M) : Snapshot :=
  ⟨.ofList s.scope.names, s.externals, .ofList reservedNames⟩

def withScope (s : Session M) (scope : Scope) : Session M :=
  { s with scope := scope }

def withExternals (s : Session M) (externals : NameSet) : Session M :=
  { s with externals := externals }

def pushTips (s : Session M) (tips : List String) : Session M :=
  { s with tips := s.tips ++ tips }

/-- The tips that wait, and the session without them. -/
def takeTips (s : Session M) : List String × Session M :=
  (s.tips, { s with tips := [] })

def evaluate (host : Host M) (line : String) (s : Session M) :
    Except EvalError Flow × Session M :=
  let (result, state) := evalLine host.launch line s.toEvalState
  (result, { s with toEvalState := state })

/-- Completes a line at a position.  The tips of the outcome also wait to be shown. -/
def complete (host : Host M) (settings : Settings) (line : String) (pos : Nat) (s : Session M) :
    Except Fault (Outcome × Session M) := do
  let completers := standardCompleters settings (host.list s.machine)
  let outcome ← LineShell.complete completers line pos s.snapshot
  return (outcome, s.pushTips outcome.tips)

/-- What an editor offers at a position of a line; a position past the end is taken to the end.
A caller that cannot wait is offered nothing. -/
def suggest (host : Host M) (settings : Settings) (caller : Caller) (line : String) (pos : Nat)
    (s : Session M) : Except Fault ((Outcome × List Suggestion) × Session M) :=
  let cursor := min pos (byteSize line.toList)
  if caller.canWait then do
    let (outcome, s) ← s.complete host settings line cursor
    return ((outcome, outcome.suggestions cursor), s)
  else .ok ((.nothing [], []), s)

end Session

inductive Request where
  | evaluate (line : String)
  | complete (line : String) (pos : Nat)
  | suggest (caller : Caller) (line : String) (pos : Nat)
  | showTips
  deriving DecidableEq, Repr

inductive Answer where
  | evaluated (result : Except EvalError Flow)
  | completed (outcome : Outcome)
  | suggested (outcome : Outcome) (suggestions : List Suggestion)
  | tips (shown : List String)

namespace Session

variable {M : Type}

/-- **One request**, and the session after it. -/
def answer (host : Host M) (settings : Settings) (s : Session M) :
    Request → Except Fault (Answer × Session M)
  | .evaluate line =>
    let (result, s) := s.evaluate host line
    .ok (.evaluated result, s)
  | .complete line pos => do
    let (outcome, s) ← s.complete host settings line pos
    return (.completed outcome, s)
  | .suggest caller line pos => do
    let ((outcome, suggestions), s) ← s.suggest host settings caller line pos
    return (.suggested outcome suggestions, s)
  | .showTips =>
    let (tips, s) := s.takeTips
    .ok (.tips tips, s)

/-- The answers to a row of requests, and the session after them. -/
def answers (host : Host M) (settings : Settings) (s : Session M) :
    List Request → Except Fault (List Answer × Session M)
  | [] => .ok ([], s)
  | r :: rs => do
    let (a, s) ← s.answer host settings r
    let (as, s) ← s.answers host settings rs
    return (a :: as, s)

end Session

end LineShell
