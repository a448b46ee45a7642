import LineShell.Proofs.Steps

/-!
# How deep calls go

Which function calls which is written in the scope, and a program rewrites it while it runs.  So
nothing but the count of active calls keeps a function that calls itself from running for ever.

* `Point.Run.length_callers_le` — no step makes more calls active than may be.
* `CallChain` — functions that call each other first thing; `CallChain.run` follows them.
* `Point.AtLimit` — as many calls are active as may be, and the next form makes another.
* `CallsBounded` — all that the bound on calls comes to for one line.
* **`calls_bounded`** — so it goes for every line, scope and behaviour of programs.
* `evalLine_of_self_call` — a function that calls itself first thing always meets the bound.
-/

namespace LineShell

variable {M : Type} {launch : Launcher M}

namespace Point

variable {limit : Nat} {p q : Point M}

lemma Step.length_callers_le {c : Option Command} (h : Step launch limit p c q)
    (hp : p.callers.length ≤ limit) : q.callers.length ≤ limit := by
  cases h with
  | complete => exact hp
  | call _ hlt => exact hlt
  | back => exact Nat.le_of_succ_le hp

lemma Run.length_callers_le {cs : List Command} (h : Run launch limit p cs q)
    (hp : p.callers.length ≤ limit) : q.callers.length ≤ limit := by
  induction h with
  | refl p => exact hp
  | step hstep _ ih => exact ih (hstep.length_callers_le hp)

/-- As many calls are active as may be, and the next form makes another. -/
def AtLimit (p : Point M) : Prop :=
  p.callers.length = maxCallDepth ∧
    ∃ f fs body, p.forms = f :: fs ∧ f.Calls p.state.scope body

lemma AtLimit.stops (h : p.AtLimit) :
    p.Stops launch maxCallDepth (.error (.recursionLimit maxCallDepth)) := by
  obtain ⟨forms, callers, s⟩ := p
  obtain ⟨hlength, f, fs, body, rfl, hcalls⟩ := h
  exact .tooDeep hcalls (Nat.le_of_eq hlength.symm)

/-- No other failure of a form is taken for that of the bound. -/
lemma Stops.atLimit {k : Nat} (h : p.Stops launch maxCallDepth (.error (.recursionLimit k)))
    (hp : p.callers.length ≤ maxCallDepth) : k = maxCallDepth ∧ p.AtLimit := by
  cases h with
  | fail hfails => cases hfails
  | tooDeep hcalls hge => exact ⟨rfl, Nat.le_antisymm hp hge, _, _, _, rfl, hcalls⟩

end Point

/-! ## Calls within each other -/

/-- From the first row of forms so many calls within each other lead to the second: each is the
first form of the body before it. -/
inductive CallChain (scope : Scope) : List Form → Nat → List Form → Prop
  | here (fs : List Form) : CallChain scope fs 0 fs
  | call {f : Form} {fs gs : List Form} {body : String} {k : Nat} : f.Calls scope body →
      CallChain scope (parse body.toList).forms k gs → CallChain scope (f :: fs) (k + 1) gs

/-- A chain of calls is followed as far as calls may be made, and nothing is changed by it. -/
lemma CallChain.run {scope : Scope} {fs gs : List Form} {k limit : Nat}
    (h : CallChain scope fs k gs) {callers : List (List Form)} {s : EvalState M}
    (hs : s.scope = scope) (hk : callers.length + k ≤ limit) :
    ∃ callers', Point.Run launch limit ⟨fs, callers, s⟩ [] ⟨gs, callers', s⟩ ∧
      callers'.length = callers.length + k := by
  induction h generalizing callers with
  | here fs => exact ⟨callers, .refl _, rfl⟩
  | @call f fs gs body k hcalls _ ih =>
      subst hs
      have hstep : Point.Step launch limit ⟨f :: fs, callers, s⟩ none _ := .call hcalls (by omega)
      obtain ⟨callers', hrun, hlength⟩ : ∃ callers', Point.Run launch limit
          ⟨(parse body.toList).forms, fs :: callers, s⟩ [] ⟨gs, callers', s⟩ ∧
          callers'.length = (fs :: callers).length + k := by
        refine ih ?_
        rw [List.length_cons]
        omega
      refine ⟨callers', .step hstep hrun, ?_⟩
      rw [hlength, List.length_cons]
      omega

lemma CallChain.reaches {line : String} {s : EvalState M} {gs : List Form} {k limit : Nat}
    (h : CallChain s.scope (parse line.toList).forms k gs) (hk : k ≤ limit) :
    ∃ callers, Reaches launch limit line s ⟨gs, callers, s⟩ ∧ callers.length = k := by
  have hnone : ([] : List (List Form)).length + k ≤ limit := by
    rw [List.length_nil]
    omega
  obtain ⟨callers, hrun, hlength⟩ := h.run rfl hnone
  exact ⟨callers, ⟨_, hrun⟩, hlength.trans (Nat.zero_add k)⟩

/-- The body of a function that calls itself first thing. -/
lemma callChain_self {scope : Scope} {f : Form} {fs : List Form} {body : String}
    (hbody : (parse body.toList).forms = f :: fs) (hcalls : f.Calls scope body) (k : Nat) :
    CallChain scope (f :: fs) k (f :: fs) := by
  induction k with
  | zero => exact .here _
  | succ k ih => exact .call hcalls (hbody ▸ ih)

/-! ## The bound -/

/-- What the bound on calls comes to for one line. -/
structure CallsBounded (launch : Launcher M) (line : String) (s : EvalState M) : Prop where
  bound : maxCallDepth = 64
  /-- There is no endless row of steps. -/
  ends : Acc (fun q p => ∃ c, Point.Step launch maxCallDepth p c q) (.start line s)
  /-- It ends with what the evaluator makes of the line. -/
  result : ∃ q, Reaches launch maxCallDepth line s q ∧
    q.Stops launch maxCallDepth (evalLine launch line s).1 ∧ q.state = (evalLine launch line s).2
  /-- And so it does with every point on the way. -/
  agrees : ∀ q, Reaches launch maxCallDepth line s q →
    q.outcome launch maxCallDepth = evalLine launch line s
  active : ∀ q, Reaches launch maxCallDepth line s q → q.callers.length ≤ maxCallDepth
  /-- A call is made if it is not too deep. -/
  called : ∀ f fs body callers t, Reaches launch maxCallDepth line s ⟨f :: fs, callers, t⟩ →
    f.Calls t.scope body → callers.length < maxCallDepth →
    Reaches launch maxCallDepth line s ⟨(parse body.toList).forms, fs :: callers, t⟩
  /-- So calls may go as deep as the bound. -/
  nested : ∀ k gs, CallChain s.scope (parse line.toList).forms k gs → k ≤ maxCallDepth →
    ∃ callers, Reaches launch maxCallDepth line s ⟨gs, callers, s⟩ ∧ callers.length = k
  /-- The bound is met exactly where one call more is to be made. -/
  refused : ∀ k t, evalLine launch line s = (.error (.recursionLimit k), t) ↔
    k = maxCallDepth ∧ ∃ q, Reaches launch maxCallDepth line s q ∧ q.AtLimit ∧ q.state = t
  /-- There nothing that is left of any caller is done any more. -/
  last : ∀ q, Reaches launch maxCallDepth line s q → q.AtLimit →
    ∀ c r, ¬ Point.Step launch maxCallDepth q c r

/-- **Calls are bounded**: every evaluation ends, no more calls than the bound are ever active, and
it fails for their depth exactly where one more is to be made. -/
theorem calls_bounded (launch : Launcher M) (line : String) (s : EvalState M) :
    CallsBounded launch line s := by
  have hactive : ∀ q, Reaches launch maxCallDepth line s q → q.callers.length ≤ maxCallDepth :=
    fun q ⟨_, hrun⟩ => hrun.length_callers_le (Nat.zero_le _)
  refine ⟨rfl, (Point.wellFounded_step launch maxCallDepth).apply _, ?_,
    fun q hreaches => hreaches.outcome_eq, hactive, ?_, ?_, ?_, ?_⟩
  · obtain ⟨cs, q, hrun, hstops, hstate⟩ := evalSource_eq_iff.1
      (show evalSource launch maxCallDepth line s = (_, _) from rfl)
    exact ⟨q, ⟨cs, hrun⟩, hstops, hstate⟩
  · rintro f fs body callers t ⟨cs, hrun⟩ hcalls hlt
    exact ⟨_, hrun.trans (.step (.call hcalls hlt) (.refl _))⟩
  · intro k gs hchain hk
    exact hchain.reaches hk
  · intro k t
    constructor
    · intro h
      obtain ⟨cs, q, hrun, hstops, hstate⟩ := evalSource_eq_iff.1 h
      obtain ⟨rfl, hlimit⟩ := hstops.atLimit (hactive q ⟨cs, hrun⟩)
      exact ⟨rfl, q, ⟨cs, hrun⟩, hlimit, hstate⟩
    · rintro ⟨rfl, q, hreaches, hlimit, rfl⟩
      exact hreaches.evalSource_eq hlimit.stops
  · intro q _ hlimit c r hstep
    exact hstep.not_stops hlimit.stops

/-- A line whose first form calls a function that calls itself first thing fails for the depth of
calls, and nothing is changed. -/
theorem evalLine_of_self_call {line body : String} {s : EvalState M} {f g : Form}
    {fs gs : List Form} (hline : (parse line.toList).forms = f :: fs) (hf : f.Calls s.scope body)
    (hbody : (parse body.toList).forms = g :: gs) (hg : g.Calls s.scope body) :
    evalLine launch line s = (.error (.recursionLimit maxCallDepth), s) := by
  have hchain : CallChain s.scope (parse line.toList).forms maxCallDepth (g :: gs) := by
    rw [hline]
    exact .call hf (hbody ▸ callChain_self hbody hg 63)
  obtain ⟨callers, hreaches, hlength⟩ := hchain.reaches (Nat.le_refl _)
  exact hreaches.evalSource_eq (.tooDeep hg (Nat.le_of_eq hlength.symm))

end LineShell
