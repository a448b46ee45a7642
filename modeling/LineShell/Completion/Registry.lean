import LineShell.Completion.Context
import LineShell.Completion.Generator
import LineShell.Text.Quoted

/-!
# Dispatch

Completers are tried in order.  One whose classifier does not recognise the place is passed over
without running its generator; the first that recognises it and has candidates wins.

* `Completer` — a classifier and a generator under a name; the kind of place is left open.
* `Outcome` — the result of one request.
* **`dispatch`** — runs a row of completers, and records which generators were called with which
  head.
-/

namespace LineShell

/-- A completer for places of type `P`. -/
structure Completer (P : Type) where
  name : String
  classify : P → Option Context
  generate : Generator

def Completer.description {P : Type} (c : Completer P) : String :=
  "Completer \x7b name: " ++ Text.quoted c.name ++ " \x7d"

/-- The result of a completion request.  Tips are kept also where nothing was found. -/
structure Outcome where
  completer : Option String
  context : Option Context
  candidates : List Candidate
  tips : List String
  deriving DecidableEq, Repr

namespace Outcome

def nothing (tips : List String) : Outcome :=
  ⟨none, none, [], tips⟩

/-- The head that the candidates were made for; empty where there are none. -/
def head (o : Outcome) : String :=
  (o.context.map Context.head).getD ""

end Outcome

/-- A call of a generator: the position of its completer, and the head it was given. -/
structure Call where
  completer : Nat
  head : String
  deriving DecidableEq, Repr

/-- An outcome with the calls that led to it, in order. -/
structure Dispatch where
  calls : List Call
  outcome : Outcome
  deriving DecidableEq, Repr

/-- A dispatch with one call before it. -/
def Dispatch.after (call : Call) (d : Dispatch) : Dispatch :=
  { d with calls := call :: d.calls }

variable {P : Type}

/-- Tries completers in order, the first having position `i`. -/
def dispatchFrom (place : P) (snapshot : Snapshot) (i : Nat) (tips : List String) :
    List (Completer P) → Except Fault Dispatch
  | [] => .ok ⟨[], .nothing tips⟩
  | entry :: rest =>
    match entry.classify place with
    | none => dispatchFrom place snapshot (i + 1) tips rest
    | some ctx => do
      let (candidates, tips) ← entry.generate ctx.head snapshot tips
      if candidates = [] then
        return (← dispatchFrom place snapshot (i + 1) tips rest).after ⟨i, ctx.head⟩
      else
        return ⟨[⟨i, ctx.head⟩], ⟨some entry.name, some ctx, candidates, tips⟩⟩

/-- Runs the first completer that recognises the place and has candidates. -/
def dispatch (completers : List (Completer P)) (place : P) (snapshot : Snapshot) :
    Except Fault Dispatch :=
  dispatchFrom place snapshot 0 [] completers

/-- How often the completer at a position was called. -/
def Dispatch.callCount (d : Dispatch) (i : Nat) : Nat :=
  d.calls.countP (·.completer = i)

end LineShell
