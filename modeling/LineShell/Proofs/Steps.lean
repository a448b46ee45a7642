import LineShell.Proofs.Effects

/-!
# Evaluation step by step

The evaluator runs the body of a function inside the run of the form that calls it.  Here the same
is done without nesting: what is left of each caller is kept in a row, and each step looks at one
form only.  That the two agree lets a property of a whole evaluation be proved from one step.

* `Point` — what is left to do, and the state; the callers that wait are the active calls.
* `Point.Step`, `Point.Stops` — what a point does next, or how the evaluation ends there.
* `Point.Run` — steps one after another, with the commands that completed on the way.
* `Point.exists_step_or_stops`, `Point.Step.unique` — a point does one thing and no other.
* `Point.wellFounded_step` — no evaluation goes on for ever.
* **`evalSource_eq_iff`** — the result of a line is where its steps come to an end.
-/

namespace LineShell

variable {M : Type}

/-- A point of an evaluation. -/
structure Point (M : Type) where
  /-- What is left of the line or body that is evaluated. -/
  forms : List Form
  /-- What is left of each line or body behind a call that is not over, the innermost first. -/
  callers : List (List Form)
  state : EvalState M

namespace Point

/-- The evaluation of a line begins. -/
def start (line : String) (s : EvalState M) : Point M :=
  ⟨(parse line.toList).forms, [], s⟩

/-- One step where at most `limit` functions may be active, with the command that it completed, if
it is not a call or the end of one. -/
inductive Step (launch : Launcher M) (limit : Nat) : Point M → Option Command → Point M → Prop
  | complete {f : Form} {fs : List Form} {callers : List (List Form)} {s t : EvalState M}
      {c : Command} : f.Completes launch s c t →
      Step launch limit ⟨f :: fs, callers, s⟩ (some c) ⟨fs, callers, t⟩
  | call {f : Form} {fs : List Form} {callers : List (List Form)} {s : EvalState M}
      {body : String} : f.Calls s.scope body → callers.length < limit →
      Step launch limit ⟨f :: fs, callers, s⟩ none
        ⟨(parse body.toList).forms, fs :: callers, s⟩
  | back {fs : List Form} {callers : List (List Form)} {s : EvalState M} :
      Step launch limit ⟨[], fs :: callers, s⟩ none ⟨fs, callers, s⟩

/-- The evaluation ends at a point, with a result. -/
inductive Stops (launch : Launcher M) (limit : Nat) : Point M → Except EvalError Flow → Prop
  | done {s : EvalState M} : Stops launch limit ⟨[], [], s⟩ (.ok .goOn)
  | exit {f : Form} {fs : List Form} {callers : List (List Form)} {s : EvalState M} :
      f.command s.scope = .ok .exit → Stops launch limit ⟨f :: fs, callers, s⟩ (.ok .exit)
  | fail {f : Form} {fs : List Form} {callers : List (List Form)} {s : EvalState M}
      {e : EvalError} : f.Fails launch s e → Stops launch limit ⟨f :: fs, callers, s⟩ (.error e)
  | tooDeep {f : Form} {fs : List Form} {callers : List (List Form)} {s : EvalState M}
      {body : String} : f.Calls s.scope body → limit ≤ callers.length →
      Stops launch limit ⟨f :: fs, callers, s⟩ (.error (.recursionLimit maxCallDepth))

/-- Steps one after another, with the commands that they completed. -/
inductive Run (launch : Launcher M) (limit : Nat) : Point M → List Command → Point M → Prop
  | refl (p : Point M) : Run launch limit p [] p
  | step {p q r : Point M} {c : Option Command} {cs : List Command} :
      Step launch limit p c q → Run launch limit q cs r → Run launch limit p (c.toList ++ cs) r

variable {launch : Launcher M} {limit : Nat} {p q r : Point M}

lemma Run.trans {cs ds : List Command} (h : Run launch limit p cs q)
    (h' : Run launch limit q ds r) : Run launch limit p (cs ++ ds) r := by
  induction h with
  | refl p => exact h'
  | step hstep _ ih =>
      rw [List.append_assoc]
      exact .step hstep (ih h')

/-! ## A point does one thing -/

theorem exists_step_or_stops (launch : Launcher M) (limit : Nat) (p : Point M) :
    (∃ c q, Step launch limit p c q) ∨ ∃ r, Stops launch limit p r := by
  match p with
  | ⟨[], [], s⟩ => exact .inr ⟨_, .done⟩
  | ⟨[], fs :: callers, s⟩ => exact .inl ⟨_, _, .back⟩
  | ⟨f :: fs, callers, s⟩ =>
      rcases f.run_cases launch s with ⟨body, hcalls⟩ | hexit | ⟨c, t, hcompletes⟩ | ⟨e, hfails⟩
      · rcases Nat.lt_or_ge callers.length limit with hlt | hge
        · exact .inl ⟨_, _, .call hcalls hlt⟩
        · exact .inr ⟨_, .tooDeep hcalls hge⟩
      · exact .inr ⟨_, .exit hexit⟩
      · exact .inl ⟨_, _, .complete hcompletes⟩
      · exact .inr ⟨_, .fail hfails⟩

lemma Step.not_stops {c : Option Command} {e : Except EvalError Flow}
    (h : Step launch limit p c q) : ¬ Stops launch limit p e := by
  intro hstops
  cases h with
  | complete hcompletes =>
      cases hstops with
      | exit hexit => exact hcompletes.not_exit hexit
      | fail hfails => exact hcompletes.not_fails hfails
      | tooDeep hcalls => exact hcompletes.not_calls hcalls
  | call hcalls hlt =>
      cases hstops with
      | exit hexit => exact hcalls.not_exit hexit
      | fail hfails => exact hfails.not_calls hcalls
      | tooDeep _ hge => omega
  | back => cases hstops

theorem Step.unique {c d : Option Command} (h : Step launch limit p c q)
    (h' : Step launch limit p d r) : c = d ∧ q = r := by
  cases h with
  | complete hcompletes =>
      cases h' with
      | complete hcompletes' =>
          obtain ⟨rfl, rfl⟩ := hcompletes.unique hcompletes'
          exact ⟨rfl, rfl⟩
      | call hcalls => exact absurd hcalls hcompletes.not_calls
  | call hcalls =>
      cases h' with
      | complete hcompletes => exact absurd hcalls hcompletes.not_calls
      | call hcalls' =>
          obtain rfl := hcalls.unique hcalls'
          exact ⟨rfl, rfl⟩
  | back =>
      cases h' with
      | back => exact ⟨rfl, rfl⟩

/-- Two runs to an end are one. -/
theorem Run.unique {cs ds : List Command} {e e' : Except EvalError Flow}
    (h : Run launch limit p cs q) (hq : Stops launch limit q e) (h' : Run launch limit p ds r)
    (hr : Stops launch limit r e') : cs = ds ∧ q = r := by
  induction h generalizing ds with
  | refl p =>
      cases h' with
      | refl => exact ⟨rfl, rfl⟩
      | step hstep _ => exact absurd hq hstep.not_stops
  | step hstep _ ih =>
      cases h' with
      | refl => exact absurd hr hstep.not_stops
      | step hstep' hrun' =>
          obtain ⟨rfl, rfl⟩ := hstep.unique hstep'
          obtain ⟨rfl, rfl⟩ := ih hq hrun'
          exact ⟨rfl, rfl⟩

/-! ## Every evaluation ends -/

/-- The innermost line or body is run to its end, or the evaluation ends before. -/
def Ends (launch : Launcher M) (limit : Nat) (p : Point M) : Prop :=
  ∃ cs q, Run launch limit p cs q ∧
    (q.forms = [] ∧ q.callers = p.callers ∨ ∃ e, Stops launch limit q e)

lemma Ends.of_run {cs : List Command} (h : Ends launch limit q) (hrun : Run launch limit p cs q)
    (hcallers : q.callers = p.callers) : Ends launch limit p := by
  obtain ⟨ds, r, hrest, hend⟩ := h
  exact ⟨_, r, hrun.trans hrest, hend.imp_left fun hnil => ⟨hnil.1, hnil.2.trans hcallers⟩⟩

/-- If the bodies of functions that may be called are run to their end, so is a row of forms. -/
lemma ends_of_calls {callers : List (List Form)}
    (hbody : callers.length < limit → ∀ fs gs (s : EvalState M),
      Ends launch limit ⟨fs, gs :: callers, s⟩)
    (fs : List Form) (s : EvalState M) : Ends launch limit ⟨fs, callers, s⟩ := by
  induction fs generalizing s with
  | nil => exact ⟨_, _, .refl _, .inl ⟨rfl, rfl⟩⟩
  | cons f fs ih =>
      rcases f.run_cases launch s with ⟨body, hcalls⟩ | hexit | ⟨c, t, hcompletes⟩ | ⟨e, hfails⟩
      · rcases Nat.lt_or_ge callers.length limit with hlt | hge
        · have hcall : Run launch limit ⟨f :: fs, callers, s⟩ _ _ :=
            .step (.call hcalls hlt) (.refl _)
          obtain ⟨cs, ⟨forms, callers', t⟩, hrun, ⟨rfl, rfl⟩ | ⟨e, hstops⟩⟩ :=
            hbody hlt (parse body.toList).forms fs s
          · exact (ih t).of_run (hcall.trans (hrun.trans (.step .back (.refl _)))) rfl
          · exact ⟨_, _, hcall.trans hrun, .inr ⟨e, hstops⟩⟩
        · exact ⟨_, _, .refl _, .inr ⟨_, .tooDeep hcalls hge⟩⟩
      · exact ⟨_, _, .refl _, .inr ⟨_, .exit hexit⟩⟩
      · exact (ih t).of_run (.step (.complete hcompletes) (.refl _)) rfl
      · exact ⟨_, _, .refl _, .inr ⟨_, .fail hfails⟩⟩

/-- Nothing is known of the bodies of functions, which may be redefined at any time.  But each call
leaves one call less to make, and within one body there are only so many forms. -/
lemma ends (launch : Launcher M) (limit : Nat) (p : Point M) : Ends launch limit p := by
  obtain ⟨fs, callers, s⟩ := p
  induction hn : limit - callers.length generalizing fs callers s with
  | zero => exact ends_of_calls (fun hlt => by omega) fs s
  | succ n ih =>
      refine ends_of_calls (fun _ gs hs t => ih gs (hs :: callers) t ?_) fs s
      rw [List.length_cons]
      omega

theorem exists_run_stops (launch : Launcher M) (limit : Nat) (p : Point M) :
    ∃ cs q e, Run launch limit p cs q ∧ Stops launch limit q e := by
  obtain ⟨fs, callers, s⟩ := p
  induction callers generalizing fs s with
  | nil =>
      obtain ⟨cs, ⟨forms, callers', t⟩, hrun, ⟨rfl, rfl⟩ | ⟨e, hstops⟩⟩ :=
        ends launch limit ⟨fs, [], s⟩
      · exact ⟨_, _, _, hrun, .done⟩
      · exact ⟨_, _, _, hrun, hstops⟩
  | cons gs callers ih =>
      obtain ⟨cs, ⟨forms, callers', t⟩, hrun, ⟨rfl, rfl⟩ | ⟨e, hstops⟩⟩ :=
        ends launch limit ⟨fs, gs :: callers, s⟩
      · obtain ⟨ds, q, e, hrest, hstops⟩ := ih gs t
        exact ⟨_, _, _, hrun.trans (.step .back hrest), hstops⟩
      · exact ⟨_, _, _, hrun, hstops⟩

/-- **No evaluation goes on for ever**, whatever the bodies of functions are and become. -/
theorem wellFounded_step (launch : Launcher M) (limit : Nat) :
    WellFounded fun q p : Point M => ∃ c, Step launch limit p c q := by
  refine ⟨fun p => ?_⟩
  obtain ⟨cs, q, e, hrun, hstops⟩ := exists_run_stops launch limit p
  induction hrun with
  | refl p => exact ⟨_, fun r ⟨c, hstep⟩ => absurd hstops hstep.not_stops⟩
  | step hstep _ ih =>
      refine ⟨_, fun r ⟨c, hstep'⟩ => ?_⟩
      obtain ⟨-, rfl⟩ := hstep.unique hstep'
      exact ih hstops

/-! ## The evaluator takes these steps -/

/-- What is left of callers is run from the innermost on, each where as many calls may be made as
are not active below it. -/
def resume (launch : Launcher M) (limit : Nat) : List (List Form) → Evaluation M
  | [] => .done .goOn
  | fs :: callers =>
    .andThen (runForms launch (callFunction launch (limit - callers.length)) fs)
      (resume launch limit callers)

/-- What the evaluator makes of a point. -/
def outcome (launch : Launcher M) (limit : Nat) (p : Point M) :
    Except EvalError Flow × EvalState M :=
  resume launch limit (p.forms :: p.callers) p.state

lemma resume_cons_cons (launch : Launcher M) (limit : Nat) (f : Form) (fs : List Form)
    (callers : List (List Form)) :
    resume launch limit ((f :: fs) :: callers)
      = .andThen (f.run launch (callFunction launch (limit - callers.length)))
          (resume launch limit (fs :: callers)) := by
  rw [resume, runForms, Evaluation.andThen_assoc]
  rfl

/-- A step does not change what the evaluator makes of a point. -/
lemma Step.outcome_eq {c : Option Command} (h : Step launch limit p c q) :
    p.outcome launch limit = q.outcome launch limit := by
  cases h with
  | complete hcompletes =>
      rw [outcome, resume_cons_cons]
      exact Evaluation.andThen_of_goOn hcompletes.run_eq _
  | @call f fs callers s body hcalls hlt =>
      have hleft : limit - callers.length = limit - (callers.length + 1) + 1 := by omega
      rw [outcome, resume_cons_cons]
      rw [Evaluation.andThen, hcalls.run_eq, hleft]
      rfl
  | back => rfl

lemma outcome_of_run {f : Form} {fs : List Form} {callers : List (List Form)}
    {s t : EvalState M} {e : Except EvalError Flow}
    (h : f.run launch (callFunction launch (limit - callers.length)) s = (e, t))
    (he : e ≠ .ok .goOn) : outcome launch limit ⟨f :: fs, callers, s⟩ = (e, t) := by
  show resume launch limit ((f :: fs) :: callers) s = (e, t)
  have hne : (f.run launch (callFunction launch (limit - callers.length)) s).1 ≠ .ok .goOn := by
    rw [h]
    exact he
  rw [resume_cons_cons, Evaluation.andThen_of_ne hne, h]

lemma Stops.outcome_eq {e : Except EvalError Flow} (h : Stops launch limit p e) :
    p.outcome launch limit = (e, p.state) := by
  cases h with
  | done => rfl
  | exit hexit => exact outcome_of_run (Form.run_of_exit hexit) (by simp)
  | fail hfails => exact outcome_of_run hfails.run_eq (by simp)
  | @tooDeep f fs callers s body hcalls hge =>
      refine outcome_of_run ?_ (by simp)
      rw [hcalls.run_eq, Nat.sub_eq_zero_of_le hge]
      rfl

lemma Run.outcome_eq {cs : List Command} (h : Run launch limit p cs q) :
    p.outcome launch limit = q.outcome launch limit := by
  induction h with
  | refl p => rfl
  | step hstep _ ih => exact hstep.outcome_eq.trans ih

lemma outcome_start (launch : Launcher M) (n : Nat) (line : String) (s : EvalState M) :
    (start line s).outcome launch n = evalSource launch n line s := by
  show resume launch n [(parse line.toList).forms] s = _
  rw [resume, resume, Evaluation.andThen_done]
  rfl

end Point

/-- The evaluation of a line comes to a point. -/
def Reaches (launch : Launcher M) (n : Nat) (line : String) (s : EvalState M) (q : Point M) :
    Prop :=
  ∃ cs, Point.Run launch n (.start line s) cs q

/-- A line is evaluated: the commands that complete on the way, counted through the bodies of the
functions that it calls, with the result and the state in the end. -/
def Evaluates (launch : Launcher M) (n : Nat) (line : String) (s : EvalState M)
    (cs : List Command) (e : Except EvalError Flow) (t : EvalState M) : Prop :=
  ∃ q, Point.Run launch n (.start line s) cs q ∧ q.Stops launch n e ∧ q.state = t

variable {launch : Launcher M} {n : Nat} {line : String} {s t : EvalState M}
  {e : Except EvalError Flow}

lemma exists_evaluates (launch : Launcher M) (n : Nat) (line : String) (s : EvalState M) :
    ∃ cs e t, Evaluates launch n line s cs e t := by
  obtain ⟨cs, q, e, hrun, hstops⟩ := Point.exists_run_stops launch n (.start line s)
  exact ⟨cs, e, q.state, q, hrun, hstops, rfl⟩

/-- The evaluator makes of every point on the way what it makes of the line. -/
lemma Reaches.outcome_eq {q : Point M} (h : Reaches launch n line s q) :
    q.outcome launch n = evalSource launch n line s := by
  obtain ⟨cs, hrun⟩ := h
  rw [← hrun.outcome_eq, Point.outcome_start]

/-- Where the evaluation of a line stops is where it ends. -/
lemma Reaches.evalSource_eq {q : Point M} (h : Reaches launch n line s q)
    (hstops : q.Stops launch n e) : evalSource launch n line s = (e, q.state) := by
  rw [← h.outcome_eq, hstops.outcome_eq]

lemma Evaluates.evalSource_eq {cs : List Command} (h : Evaluates launch n line s cs e t) :
    evalSource launch n line s = (e, t) := by
  obtain ⟨q, hrun, hstops, rfl⟩ := h
  exact Reaches.evalSource_eq ⟨cs, hrun⟩ hstops

lemma Evaluates.unique {cs ds : List Command} {e' : Except EvalError Flow} {u : EvalState M}
    (h : Evaluates launch n line s cs e t) (h' : Evaluates launch n line s ds e' u) :
    cs = ds ∧ e = e' ∧ t = u := by
  have hresult := Prod.mk.inj (h.evalSource_eq.symm.trans h'.evalSource_eq)
  obtain ⟨q, hrun, hstops, -⟩ := h
  obtain ⟨r, hrun', hstops', -⟩ := h'
  exact ⟨(hrun.unique hstops hrun' hstops').1, hresult⟩

/-- **The evaluator takes these steps and no others.** -/
theorem evalSource_eq_iff :
    evalSource launch n line s = (e, t) ↔ ∃ cs, Evaluates launch n line s cs e t := by
  constructor
  · intro h
    obtain ⟨cs, e', u, hevaluates⟩ := exists_evaluates launch n line s
    obtain ⟨rfl, rfl⟩ := Prod.mk.inj (hevaluates.evalSource_eq.symm.trans h)
    exact ⟨cs, hevaluates⟩
  · rintro ⟨cs, hevaluates⟩
    exact hevaluates.evalSource_eq

end LineShell
