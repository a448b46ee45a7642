import LineShell.Evaluation.Run
import Mathlib.Tactic.Common

/-!
# What a form does

A form under a scope does one of four things: it calls a function, it leaves the shell, it
completes, or it fails.  This file says what each of them is without the evaluator.  The body of
a function is run by whoever runs the form; in the other cases nobody is asked.

* `Form.Calls` — the form calls a function.
* `Form.Completes`, `Form.Fails` — what a form that calls none changes, and all the reasons why it
  changes nothing.
* **`Form.run_cases`** — the four cases.
* `Command.effect`, `Command.key?` — what a command makes of the scope, and the one name that it is
  about.
* `Form.Completes.scope_eq`, `Command.get?_effect_of_ne` — every other binding stays.
-/

namespace LineShell

variable {M : Type}

/-! ## Effects on the scope -/

namespace Command

/-- The scope after a command that completes. -/
def effect : Command → Scope → Scope
  | set name value, scope => scope.set name value
  | define name body, scope => scope.define name body
  | delete name, scope => scope.remove name
  | _, scope => scope

/-- The name whose binding a command may change. -/
def key? : Command → Option String
  | set name _ => some name
  | define name _ => some (Scope.functionName name)
  | delete name => some name
  | _ => none

lemma get?_effect_of_ne {c : Command} {x : String} (h : c.key? ≠ some x) (scope : Scope) :
    (c.effect scope).get? x = scope.get? x := by
  cases c with
  | set name value => exact scope.get?_set_of_ne value fun hx => h (congrArg some hx.symm)
  | define name body => exact scope.get?_set_of_ne body fun hx => h (congrArg some hx.symm)
  | delete name =>
      have hne : x ≠ name := fun hx => h (congrArg some hx.symm)
      exact (scope.get?_remove name x).trans (if_neg hne)
  | nothing | exit | misuse _ _ | unsupported _ | invoke _ _ => rfl

/-- A row of words asks for a function or a program if its first word is no name of the shell. -/
lemma ofWords_eq_invoke_iff {words : List String} {name : String} {args : List String} :
    ofWords words = invoke name args ↔
      words = name :: args ∧ name ≠ "exit" ∧ name ∉ reservedNames := by
  constructor
  · intro h
    unfold ofWords at h
    split at h
    · exact absurd h (by simp)
    · exact absurd h (by simp)
    · unfold named at h
      split at h <;> exact absurd h (by simp)
    · unfold named at h
      split at h <;> exact absurd h (by simp)
    · exact absurd h (by simp)
    · exact absurd h (by simp)
    · next head args' hexit _ _ _ _ =>
      split at h
      · exact absurd h (by simp)
      · next hreserved =>
        obtain ⟨rfl, rfl⟩ := invoke.inj h
        exact ⟨rfl, fun hname => hexit hname, hreserved⟩
  · rintro ⟨rfl, hexit, hreserved⟩
    have hset : name ≠ "set" := fun h => hreserved (h ▸ by decide)
    have hfn : name ≠ "fn" := fun h => hreserved (h ▸ by decide)
    have hdel : name ≠ "del" := fun h => hreserved (h ▸ by decide)
    rw [ofWords.eq_def]
    split
    · next h => exact absurd h (by simp)
    · next h => exact absurd (List.cons.inj h).1 hexit
    · next h => exact absurd (List.cons.inj h).1 hset
    · next h => exact absurd (List.cons.inj h).1 hfn
    · next h => exact absurd (List.cons.inj h).1 hdel
    · next h => exact absurd (List.cons.inj h).1 hdel
    · next h =>
      obtain ⟨rfl, rfl⟩ := List.cons.inj h
      rw [if_neg hreserved]

end Command

/-! ## Words -/

lemma eq_error_of_map_eq_error {α β ε : Type} {g : α → β} {x : Except ε α} {e : ε}
    (h : x.map g = .error e) : x = .error e := by
  cases x with
  | error e' => exact congrArg _ (Except.error.inj h)
  | ok a => exact absurd h (by simp [Except.map])

lemma exists_of_mapM_eq_error {α β ε : Type} {f : α → Except ε β} {xs : List α} {e : ε}
    (h : xs.mapM f = .error e) : ∃ x ∈ xs, f x = .error e := by
  induction xs with
  | nil => exact absurd h (by simp [pure, Except.pure])
  | cons x xs ih =>
      rw [List.mapM_cons] at h
      cases hx : f x with
      | error e' =>
          rw [hx] at h
          obtain rfl : e' = e := Except.error.inj h
          exact ⟨x, List.mem_cons_self, hx⟩
      | ok y =>
          rw [hx] at h
          cases hxs : xs.mapM f with
          | error e' =>
              rw [hxs] at h
              obtain rfl : e' = e := Except.error.inj h
              obtain ⟨x', hx', he⟩ := ih hxs
              exact ⟨x', List.mem_cons_of_mem _ hx', he⟩
          | ok ys =>
              rw [hxs] at h
              exact absurd h (by simp [bind, Except.bind, pure, Except.pure])

lemma exists_mapM_eq_error {α β ε : Type} {f : α → Except ε β} {xs : List α} {x : α} {e : ε}
    (hx : x ∈ xs) (h : f x = .error e) : ∃ e', xs.mapM f = .error e' := by
  induction xs with
  | nil => exact absurd hx List.not_mem_nil
  | cons y ys ih =>
      rw [List.mapM_cons]
      cases hy : f y with
      | error e' => exact ⟨e', rfl⟩
      | ok b =>
          have hne : x ≠ y := by
            rintro rfl
            exact absurd (h.symm.trans hy) (by simp)
          obtain ⟨e', he'⟩ := ih (List.mem_of_ne_of_mem hne hx)
          exact ⟨e', by rw [he']; rfl⟩

/-- One of the words of a form refers to a variable. -/
def Form.RefersTo (f : Form) (name : String) : Prop :=
  ∃ w ∈ f.words, ∃ p ∈ w.primaries, p.kind = .reference ∧ name = String.ofList p.value

lemma Primary.expand_eq_error {scope : Scope} {p : Primary} {e : EvalError}
    (h : p.expand scope = .error e) :
    p.kind = .reference ∧ scope.get? (String.ofList p.value) = none ∧
      e = .undefinedVariable (String.ofList p.value) := by
  unfold expand at h
  split at h
  · next hkind =>
    cases hget : scope.get? (String.ofList p.value) with
    | some v =>
        simp only [hget] at h
        exact absurd h (by simp)
    | none =>
        simp only [hget] at h
        exact ⟨hkind, rfl, (Except.error.inj h).symm⟩
  · exact absurd h (by simp)

/-- Only a reference without a value keeps words from being expanded. -/
lemma Form.expand_eq_error {scope : Scope} {f : Form} {e : EvalError}
    (h : f.expand scope = .error e) :
    ∃ name, f.RefersTo name ∧ scope.get? name = none ∧ e = .undefinedVariable name := by
  obtain ⟨w, hw, he⟩ := exists_of_mapM_eq_error h
  obtain ⟨p, hp, he⟩ := exists_of_mapM_eq_error (eq_error_of_map_eq_error he)
  obtain ⟨hkind, hget, rfl⟩ := Primary.expand_eq_error he
  exact ⟨_, ⟨w, hw, p, hp, hkind, rfl⟩, hget, rfl⟩

/-- A reference without a value anywhere in a form keeps all its words from being expanded. -/
lemma Form.exists_expand_eq_error {scope : Scope} {f : Form} {name : String}
    (h : f.RefersTo name) (hname : scope.get? name = none) :
    ∃ x, f.RefersTo x ∧ scope.get? x = none ∧ f.expand scope = .error (.undefinedVariable x) := by
  obtain ⟨w, hw, p, hp, hkind, rfl⟩ := h
  have hprimary : p.expand scope = .error (.undefinedVariable (String.ofList p.value)) := by
    simp only [Primary.expand, hkind, hname]
  obtain ⟨e, he⟩ := exists_mapM_eq_error hp hprimary
  have hword : w.expand scope = .error e := by
    rw [Compound.expand, he]
    rfl
  obtain ⟨e', he'⟩ := exists_mapM_eq_error hw hword
  obtain ⟨x, hx, hnone, rfl⟩ := expand_eq_error he'
  exact ⟨x, hx, hnone, he'⟩

/-! ## The four cases -/

namespace Form

/-- What the words of a form ask for under a scope. -/
def command (scope : Scope) (f : Form) : Except EvalError Command :=
  (f.expand scope).map Command.ofWords

/-- The form calls a function: its first word is no name of the shell, and a function has that
name and this body. -/
def Calls (scope : Scope) (f : Form) (body : String) : Prop :=
  ∃ name args, f.expand scope = .ok (name :: args) ∧ name ≠ "exit" ∧ name ∉ reservedNames ∧
    scope.function? name = some body

/-- The form completes without calling a function, having carried out a command. -/
inductive Completes (launch : Launcher M) (s : EvalState M) (f : Form) :
    Command → EvalState M → Prop
  | nothing : f.command s.scope = .ok .nothing → Completes launch s f .nothing s
  | set {name value : String} : f.command s.scope = .ok (.set name value) →
      Completes launch s f (.set name value) { s with scope := s.scope.set name value }
  | define {name body : String} : f.command s.scope = .ok (.define name body) →
      Completes launch s f (.define name body) { s with scope := s.scope.define name body }
  | delete {name value : String} : f.command s.scope = .ok (.delete name) →
      s.scope.get? name = some value →
      Completes launch s f (.delete name) { s with scope := s.scope.remove name }
  | program {name : String} {args : List String} {m : M} :
      f.command s.scope = .ok (.invoke name args) → s.scope.function? name = none →
      launch s.machine name args = .ok m →
      Completes launch s f (.invoke name args) { s with machine := m }

/-- The form fails without calling a function, for one of these reasons. -/
inductive Fails (launch : Launcher M) (s : EvalState M) (f : Form) : EvalError → Prop
  | reference {name : String} : f.expand s.scope = .error (.undefinedVariable name) →
      f.RefersTo name → s.scope.get? name = none → Fails launch s f (.undefinedVariable name)
  | arguments {form usage : String} : f.command s.scope = .ok (.misuse form usage) →
      Fails launch s f (.badArguments form usage)
  | unsupported {form : String} : f.command s.scope = .ok (.unsupported form) →
      Fails launch s f (.unsupported form)
  | absent {name : String} : f.command s.scope = .ok (.delete name) →
      s.scope.get? name = none → Fails launch s f (.undefinedVariable name)
  | program {name : String} {args : List String} {cause : FileError} :
      f.command s.scope = .ok (.invoke name args) → s.scope.function? name = none →
      launch s.machine name args = .error cause → Fails launch s f (.spawnFailed name cause)

variable {launch : Launcher M} {call : String → Evaluation M} {s t : EvalState M} {f : Form}

lemma command_eq_ok_iff {scope : Scope} {c : Command} :
    f.command scope = .ok c ↔ ∃ words, f.expand scope = .ok words ∧ Command.ofWords words = c := by
  rw [command]
  cases f.expand scope with
  | error e => simp [Except.map]
  | ok words => simp [Except.map]

lemma calls_iff {scope : Scope} {body : String} :
    f.Calls scope body ↔ ∃ name args, f.command scope = .ok (.invoke name args) ∧
      scope.function? name = some body := by
  constructor
  · rintro ⟨name, args, hexpand, hexit, hreserved, hbody⟩
    refine ⟨name, args, command_eq_ok_iff.2 ⟨_, hexpand, ?_⟩, hbody⟩
    exact Command.ofWords_eq_invoke_iff.2 ⟨rfl, hexit, hreserved⟩
  · rintro ⟨name, args, hcommand, hbody⟩
    obtain ⟨words, hexpand, hwords⟩ := command_eq_ok_iff.1 hcommand
    obtain ⟨rfl, hexit, hreserved⟩ := Command.ofWords_eq_invoke_iff.1 hwords
    exact ⟨name, args, hexpand, hexit, hreserved, hbody⟩

lemma run_of_command {c : Command} (h : f.command s.scope = .ok c) :
    f.run launch call s = c.run launch call s := by
  obtain ⟨words, hexpand, rfl⟩ := command_eq_ok_iff.1 h
  rw [run, hexpand]

lemma Calls.run_eq {body : String} (h : f.Calls s.scope body) :
    f.run launch call s = call body s := by
  obtain ⟨name, args, hcommand, hbody⟩ := calls_iff.1 h
  simp only [run_of_command hcommand, Command.run, hbody]

lemma Completes.command_eq {c : Command} (h : f.Completes launch s c t) :
    f.command s.scope = .ok c := by
  cases h with
  | nothing hc | set hc | define hc | delete hc | program hc => exact hc

lemma Completes.run_eq {c : Command} (h : f.Completes launch s c t) :
    f.run launch call s = (.ok .goOn, t) := by
  cases h with
  | nothing hc | set hc | define hc => rw [run_of_command hc]; rfl
  | delete hc hget =>
      simp only [run_of_command hc, Command.run, hget]
      rfl
  | program hc hnone hlaunch => simp only [run_of_command hc, Command.run, hnone, hlaunch]

lemma Fails.run_eq {e : EvalError} (h : f.Fails launch s e) :
    f.run launch call s = (.error e, s) := by
  cases h with
  | reference hexpand => rw [run, hexpand]; rfl
  | arguments hc | unsupported hc => rw [run_of_command hc]; rfl
  | absent hc hget =>
      simp only [run_of_command hc, Command.run, hget]
      rfl
  | program hc hnone hlaunch =>
      simp only [run_of_command hc, Command.run, hnone, hlaunch]
      rfl

lemma run_of_exit (h : f.command s.scope = .ok .exit) :
    f.run launch call s = (.ok .exit, s) := by
  rw [run_of_command h]
  rfl

/-- **A form calls a function, leaves the shell, completes or fails.** -/
theorem run_cases (launch : Launcher M) (s : EvalState M) (f : Form) :
    (∃ body, f.Calls s.scope body) ∨ f.command s.scope = .ok .exit ∨
      (∃ c t, f.Completes launch s c t) ∨ ∃ e, f.Fails launch s e := by
  cases hcommand : f.command s.scope with
  | error e =>
      have hexpand := eq_error_of_map_eq_error hcommand
      obtain ⟨name, hrefers, hget, rfl⟩ := expand_eq_error hexpand
      exact .inr (.inr (.inr ⟨_, .reference hexpand hrefers hget⟩))
  | ok c =>
      cases c with
      | nothing => exact .inr (.inr (.inl ⟨_, _, .nothing hcommand⟩))
      | exit => exact .inr (.inl rfl)
      | set name value => exact .inr (.inr (.inl ⟨_, _, .set hcommand⟩))
      | define name body => exact .inr (.inr (.inl ⟨_, _, .define hcommand⟩))
      | delete name =>
          cases hget : s.scope.get? name with
          | none => exact .inr (.inr (.inr ⟨_, .absent hcommand hget⟩))
          | some value => exact .inr (.inr (.inl ⟨_, _, .delete hcommand hget⟩))
      | misuse form usage => exact .inr (.inr (.inr ⟨_, .arguments hcommand⟩))
      | unsupported form => exact .inr (.inr (.inr ⟨_, .unsupported hcommand⟩))
      | invoke name args =>
          cases hbody : s.scope.function? name with
          | some body => exact .inl ⟨body, calls_iff.2 ⟨name, args, hcommand, hbody⟩⟩
          | none =>
              cases hlaunch : launch s.machine name args with
              | error cause => exact .inr (.inr (.inr ⟨_, .program hcommand hbody hlaunch⟩))
              | ok m => exact .inr (.inr (.inl ⟨_, _, .program hcommand hbody hlaunch⟩))

/-! ## The cases exclude each other

Whoever runs the form would see a different result, if the calling of functions is chosen well.
-/

lemma Calls.unique {scope : Scope} {body body' : String} (h : f.Calls scope body)
    (h' : f.Calls scope body') : body = body' := by
  obtain ⟨name, args, hexpand, -, -, hbody⟩ := h
  obtain ⟨name', args', hexpand', -, -, hbody'⟩ := h'
  obtain ⟨rfl, rfl⟩ := List.cons.inj (Except.ok.inj (hexpand.symm.trans hexpand'))
  exact Option.some.inj (hbody.symm.trans hbody')

lemma Calls.not_exit {body : String} (h : f.Calls s.scope body) :
    f.command s.scope ≠ .ok .exit := by
  intro hexit
  obtain ⟨name, args, hcommand, -⟩ := calls_iff.1 h
  exact absurd (hexit.symm.trans hcommand) (by simp)

lemma Completes.unique {u : EvalState M} {c d : Command} (h : f.Completes launch s c t)
    (h' : f.Completes launch s d u) : c = d ∧ t = u := by
  have hrun : f.run launch (fun _ => .done .goOn) s = (.ok .goOn, t) := h.run_eq
  rw [h'.run_eq] at hrun
  exact ⟨Except.ok.inj (h.command_eq.symm.trans h'.command_eq), (Prod.mk.inj hrun).2.symm⟩

lemma Completes.not_calls {c : Command} {body : String} (h : f.Completes launch s c t) :
    ¬ f.Calls s.scope body := by
  intro hcalls
  have hrun : f.run launch (fun _ => .done .exit) s = (.ok .exit, s) := hcalls.run_eq
  rw [h.run_eq] at hrun
  exact absurd hrun (by simp)

lemma Completes.not_exit {c : Command} (h : f.Completes launch s c t) :
    f.command s.scope ≠ .ok .exit := by
  intro hexit
  have hrun : f.run launch (fun _ => .done .goOn) s = (.ok .exit, s) := run_of_exit hexit
  rw [h.run_eq] at hrun
  exact absurd hrun (by simp)

lemma Completes.not_fails {c : Command} {e : EvalError} (h : f.Completes launch s c t) :
    ¬ f.Fails launch s e := by
  intro hfails
  have hrun : f.run launch (fun _ => .done .goOn) s = (.error e, s) := hfails.run_eq
  rw [h.run_eq] at hrun
  exact absurd hrun (by simp)

lemma Fails.not_calls {e : EvalError} {body : String} (h : f.Fails launch s e) :
    ¬ f.Calls s.scope body := by
  intro hcalls
  have hrun : f.run launch (fun _ => .done .goOn) s = (.ok .goOn, s) := hcalls.run_eq
  rw [h.run_eq] at hrun
  exact absurd hrun (by simp)

/-! ## What a form changes -/

lemma Completes.scope_eq {c : Command} (h : f.Completes launch s c t) :
    t.scope = c.effect s.scope := by
  cases h <;> rfl

end Form

end LineShell
