import LineShell.Session

/-!
# The interactive shell

A session at a terminal begins with the variables of the environment, shows its tips before each
line, and ends when it is told to.

* `Scope.ofEnvironment` — the variables that a session begins with.
* `Interactive` — a session with what the terminal needs to know.
* **`Interactive.showTips`** — the tips that are due, as they are printed.
-/

namespace LineShell

def completionMenu : String := "completion_menu"

/-- The variables that a session begins with.  A variable that is no text stops the shell. -/
def Scope.ofEnvironment (env : Environment) : Except Fault Scope := do
  let bindings ← env.mapM fun v =>
    match v.1.text?, v.2.text? with
    | some name, some value => .ok (name, value)
    | _, _ => .error .notText
  return .ofList bindings

structure Interactive (M : Type) where
  session : Session M
  running : Bool
  color : Bool

namespace Interactive

variable {M : Type}

def start (session : Session M) (color : Bool) : Interactive M :=
  ⟨session, true, color⟩

def stop (i : Interactive M) : Interactive M :=
  { i with running := false }

/-- A tip as it is printed: in yellow where there is colour. -/
def shownTip (i : Interactive M) (tip : String) : String :=
  if i.color then "\x1b[33m" ++ tip ++ "\x1b[0m" else tip

/-- The lines that are printed before an input, each tip once. -/
def showTips (i : Interactive M) : List String × Interactive M :=
  let (tips, session) := i.session.takeTips
  (tips.map i.shownTip, { i with session })

/-- Asks for a line where there is no terminal: the tips are shown, and then it fails. -/
def readDetached (i : Interactive M) : (List String × Except FileError String) × Interactive M :=
  let (lines, i) := i.showTips
  ((lines, .error .noTerminal), i)

end Interactive

/-- The session that a terminal starts with on a machine. -/
def Machine.startSession (m : Machine) : Except Fault (Session Machine) :=
  (Scope.ofEnvironment m.environment).map (Session.start m).withScope

end LineShell
