import LineShell.Proofs.Steps

/-!
# Failures

A form expands all its words and checks all that it is asked before it changes anything.  So one
that fails might as well not have been there, and what a line leaves behind when it fails is what
was completed before.

* `Form.Atomic` — a form has its effect as a whole or not at all.
* `Point.Run.scope_eq` — the scope at any point is what the commands up to it make of the first.
* `FailsAfter` — a line that fails, with what was completed before.
* **`failing_leaves_scope`** — so it goes for every form that calls no function, and every line.
-/

namespace LineShell

variable {M : Type} {launch : Launcher M}

/-! ## One form -/

namespace Form

variable {call : String → Evaluation M} {s t : EvalState M} {f : Form}

lemma run_eq_error_iff {e : EvalError} (h : ∀ body, ¬ f.Calls s.scope body) :
    f.run launch call s = (.error e, t) ↔ t = s ∧ f.Fails launch s e := by
  constructor
  · intro hrun
    rcases f.run_cases launch s with ⟨body, hcalls⟩ | hexit | ⟨c, u, hcompletes⟩ | ⟨e', hfails⟩
    · exact absurd hcalls (h body)
    · rw [run_of_exit hexit] at hrun
      exact absurd hrun (by simp)
    · rw [hcompletes.run_eq] at hrun
      exact absurd hrun (by simp)
    · rw [hfails.run_eq] at hrun
      obtain ⟨he, rfl⟩ := Prod.mk.inj hrun
      obtain rfl := Except.error.inj he
      exact ⟨rfl, hfails⟩
  · rintro ⟨rfl, hfails⟩
    exact hfails.run_eq

/-- A form with a reference to a variable without a value fails, also where it would call
a function. -/
lemma exists_run_eq_error {name : String} (h : f.RefersTo name)
    (hname : s.scope.get? name = none) :
    ∃ x, f.RefersTo x ∧ s.scope.get? x = none ∧
      f.run launch call s = (.error (.undefinedVariable x), s) := by
  obtain ⟨x, hx, hnone, hexpand⟩ := exists_expand_eq_error h hname
  exact ⟨x, hx, hnone, (Fails.reference hexpand hx hnone).run_eq⟩

lemma scope_eq_of_run {flow : Flow} (h : ∀ body, ¬ f.Calls s.scope body)
    (hrun : f.run launch call s = (.ok flow, t)) :
    ∃ c, f.command s.scope = .ok c ∧ t.scope = c.effect s.scope := by
  rcases f.run_cases launch s with ⟨body, hcalls⟩ | hexit | ⟨c, u, hcompletes⟩ | ⟨e, hfails⟩
  · exact absurd hcalls (h body)
  · rw [run_of_exit hexit] at hrun
    obtain ⟨-, rfl⟩ := Prod.mk.inj hrun
    exact ⟨_, hexit, rfl⟩
  · rw [hcompletes.run_eq] at hrun
    obtain ⟨-, rfl⟩ := Prod.mk.inj hrun
    exact ⟨c, hcompletes.command_eq, hcompletes.scope_eq⟩
  · rw [hfails.run_eq] at hrun
    exact absurd hrun (by simp)

/-- What a form changes, and why it fails, where `call` evaluates the bodies of functions. -/
structure Atomic (launch : Launcher M) (call : String → Evaluation M) (s : EvalState M)
    (f : Form) : Prop where
  failure : ∀ e t, f.run launch call s = (.error e, t) ↔ t = s ∧ f.Fails launch s e
  /-- All but one of the bindings stay. -/
  success : ∀ flow t, f.run launch call s = (.ok flow, t) →
    ∃ c, f.command s.scope = .ok c ∧ t.scope = c.effect s.scope ∧
      ∀ x, c.key? ≠ some x → t.scope.get? x = s.scope.get? x

lemma atomic (h : ∀ body, ¬ f.Calls s.scope body) : f.Atomic launch call s := by
  refine ⟨fun e t => run_eq_error_iff h, fun flow t hrun => ?_⟩
  obtain ⟨c, hcommand, hscope⟩ := scope_eq_of_run h hrun
  refine ⟨c, hcommand, hscope, fun x hx => ?_⟩
  rw [hscope]
  exact Command.get?_effect_of_ne hx s.scope

end Form

/-! ## A whole line -/

namespace Point

variable {limit : Nat} {p q : Point M}

lemma Step.scope_eq {c : Option Command} (h : Step launch limit p c q) :
    q.state.scope = c.toList.foldl (fun scope d => d.effect scope) p.state.scope := by
  cases h with
  | complete hcompletes => exact hcompletes.scope_eq
  | call | back => rfl

/-- The scope at a point is what the commands that completed on the way make of the scope before
them. -/
lemma Run.scope_eq {cs : List Command} (h : Run launch limit p cs q) :
    q.state.scope = cs.foldl (fun scope c => c.effect scope) p.state.scope := by
  induction h with
  | refl p => rfl
  | step hstep _ ih => rw [List.foldl_append, ← hstep.scope_eq, ih]

end Point

/-- A line comes to a form that fails with `e`, and the state is still `t`, which is what the
commands before it left. -/
def FailsAfter (launch : Launcher M) (n : Nat) (line : String) (s : EvalState M)
    (cs : List Command) (e : EvalError) (t : EvalState M) : Prop :=
  ∃ f fs callers, Point.Run launch n (.start line s) cs ⟨f :: fs, callers, t⟩ ∧
    (f.Fails launch t e ∨
      (∃ body, f.Calls t.scope body) ∧ n ≤ callers.length ∧ e = .recursionLimit maxCallDepth) ∧
    ∀ c q, ¬ Point.Step launch n ⟨f :: fs, callers, t⟩ c q

/-- **A form that fails leaves everything as it was, and a line that fails leaves what was completed
before.** -/
theorem failing_leaves_scope (launch : Launcher M) :
    (∀ (call : String → Evaluation M) (s : EvalState M) (f : Form),
      (∀ body, ¬ f.Calls s.scope body) → f.Atomic launch call s) ∧
    (∀ (call : String → Evaluation M) (s : EvalState M) (f : Form) (name : String),
      f.RefersTo name → s.scope.get? name = none →
        ∃ x, f.RefersTo x ∧ s.scope.get? x = none ∧
          f.run launch call s = (.error (.undefinedVariable x), s)) ∧
    ∀ n line (s : EvalState M) e t, evalSource launch n line s = (.error e, t) ↔
      ∃ cs, FailsAfter launch n line s cs e t ∧
        t.scope = cs.foldl (fun scope c => c.effect scope) s.scope := by
  refine ⟨fun call s f h => Form.atomic h, fun call s f name => Form.exists_run_eq_error,
    fun n line s e t => ?_⟩
  constructor
  · intro h
    obtain ⟨cs, ⟨forms, callers, u⟩, hrun, hstops, rfl⟩ := evalSource_eq_iff.1 h
    refine ⟨cs, ?_, hrun.scope_eq⟩
    cases hstops with
    | fail hfails =>
        exact ⟨_, _, _, hrun, .inl hfails, fun c q hstep => hstep.not_stops (.fail hfails)⟩
    | tooDeep hcalls hge =>
        exact ⟨_, _, _, hrun, .inr ⟨⟨_, hcalls⟩, hge, rfl⟩,
          fun c q hstep => hstep.not_stops (.tooDeep hcalls hge)⟩
  · rintro ⟨cs, ⟨f, fs, callers, hrun, hfails | ⟨⟨body, hcalls⟩, hge, rfl⟩, -⟩, -⟩
    · exact Evaluates.evalSource_eq ⟨_, hrun, .fail hfails, rfl⟩
    · exact Evaluates.evalSource_eq ⟨_, hrun, .tooDeep hcalls hge, rfl⟩

example : evalLine (fun (_ : Unit) _ _ => .error .notFound) "set x 1; del y; set z 2" ⟨.empty, ()⟩
    = (.error (.undefinedVariable "y"), ⟨Scope.empty.set "x" "1", ()⟩) := by
  cbv

end LineShell
