import LineShell.Proofs.Dispatch

/-!
# Which completer is asked

A dispatch asks the completers that recognise the place, one after the other, until one has
candidates.  `DispatchedTo` says so without following the loop: the row of those completers is cut
where the first of them finds something.  All is shown along `DispatchedTo`, with one lemma for what
the first completer of a row adds.

* `recognitions` — the completers that recognise a place, with what each made of it.
* `AllPass` — generators that are called one after the other and find nothing.
* `dispatchedTo_cons_iff`, `faultsAt_cons_iff` — what the first of the completers does.
* `dispatchFrom_eq_ok_iff`, `dispatchFrom_eq_error_iff` — a dispatch does just that.
* `DispatchedTo.pairwise_calls` — calls are made in the order of the completers.
* `dispatchFrom_withGenerators` — what is not called might be anything.
* **`dispatch_policy`** — for every row of completers, whatever they are.
-/

namespace LineShell

variable {P : Type} {place : P} {snapshot : Snapshot} {d : Dispatch} {f : Fault} {i : Nat}
  {tips : List String} {es : List (Completer P)}

/-! ## Those that recognise the place -/

/-- A completer that recognises a place: where it stands, and what it made of the place. -/
structure Recognition (P : Type) where
  position : Nat
  completer : Completer P
  context : Context

namespace Recognition

variable (a : Recognition P)

/-- The call of its generator, with the head of its own context. -/
def call : Call :=
  ⟨a.position, a.context.head⟩

def generate (snapshot : Snapshot) (tips : List String) : Except Fault Generated :=
  a.completer.generate a.context.head snapshot tips

/-- The outcome where it is the one with candidates. -/
def outcome (candidates : List Candidate) (tips : List String) : Outcome :=
  ⟨some a.completer.name, some a.context, candidates, tips⟩

end Recognition

/-- The completers of a row that recognise a place, in their order, the first having position
`i`. -/
def recognitionsFrom (place : P) (i : Nat) (es : List (Completer P)) : List (Recognition P) :=
  (es.zipIdx i).filterMap fun e => (e.1.classify place).map fun ctx => ⟨e.2, e.1, ctx⟩

def recognitions (place : P) (es : List (Completer P)) : List (Recognition P) :=
  recognitionsFrom place 0 es

lemma recognitionsFrom_nil (place : P) (i : Nat) : recognitionsFrom place i [] = [] :=
  rfl

lemma recognitionsFrom_cons_of_none {entry : Completer P} (h : entry.classify place = none)
    (i : Nat) (rest : List (Completer P)) :
    recognitionsFrom place i (entry :: rest) = recognitionsFrom place (i + 1) rest := by
  simp [recognitionsFrom, h]

lemma recognitionsFrom_cons_of_some {entry : Completer P} {ctx : Context}
    (h : entry.classify place = some ctx) (i : Nat) (rest : List (Completer P)) :
    recognitionsFrom place i (entry :: rest)
      = ⟨i, entry, ctx⟩ :: recognitionsFrom place (i + 1) rest := by
  simp [recognitionsFrom, h]

/-! ## What becomes of a row of them -/

/-- The generators of some completers, called one after the other, find nothing.  Each is given the
tips that those before have left. -/
inductive AllPass (snapshot : Snapshot) : List (Recognition P) → List String → List String → Prop
    where
  | nil (tips : List String) : AllPass snapshot [] tips tips
  | cons {a : Recognition P} {as : List (Recognition P)} {tips tips' left : List String} :
      a.generate snapshot tips = .ok ([], tips') → AllPass snapshot as tips' left →
      AllPass snapshot (a :: as) tips left

/-- What comes of asking some completers in order, by which of them is the first with
candidates. -/
inductive DispatchedTo (snapshot : Snapshot) (as : List (Recognition P)) (tips : List String) :
    Dispatch → Prop where
  | winner (before after : List (Recognition P)) (w : Recognition P) (candidates : List Candidate)
      (passed left : List String) : as = before ++ w :: after →
      AllPass snapshot before tips passed → w.generate snapshot passed = .ok (candidates, left) →
      candidates ≠ [] →
      DispatchedTo snapshot as tips
        ⟨(before ++ [w]).map Recognition.call, w.outcome candidates left⟩
  | nobody (left : List String) : AllPass snapshot as tips left →
      DispatchedTo snapshot as tips ⟨as.map Recognition.call, .nothing left⟩

/-- A completer is reached and its generator faults. -/
def FaultsAt (snapshot : Snapshot) (as : List (Recognition P)) (tips : List String)
    (f : Fault) : Prop :=
  ∃ before a after passed, as = before ++ a :: after ∧ AllPass snapshot before tips passed ∧
    a.generate snapshot passed = .error f

section rows

variable {a : Recognition P} {as : List (Recognition P)}

lemma allPass_cons_iff {left : List String} :
    AllPass snapshot (a :: as) tips left ↔
      ∃ tips', a.generate snapshot tips = .ok ([], tips') ∧ AllPass snapshot as tips' left := by
  constructor
  · rintro (_ | ⟨ha, has⟩)
    exact ⟨_, ha, has⟩
  · rintro ⟨tips', ha, has⟩
    exact .cons ha has

lemma dispatchedTo_nil_iff :
    DispatchedTo (P := P) snapshot [] tips d ↔ d = ⟨[], .nothing tips⟩ := by
  constructor
  · rintro (⟨before, after, w, _, _, _, hcut⟩ | ⟨left, ⟨⟩⟩)
    · simp at hcut
    · rfl
  · rintro rfl
    exact .nobody tips (.nil tips)

/-- The first completer of a row finds nothing and hands on, or it wins. -/
lemma dispatchedTo_cons_iff :
    DispatchedTo snapshot (a :: as) tips d ↔
      (∃ tips' d', a.generate snapshot tips = .ok ([], tips') ∧
        DispatchedTo snapshot as tips' d' ∧ d = d'.after a.call) ∨
      ∃ candidates left, a.generate snapshot tips = .ok (candidates, left) ∧ candidates ≠ [] ∧
        d = ⟨[a.call], a.outcome candidates left⟩ := by
  constructor
  · rintro (⟨before, after, w, candidates, passed, left, hcut, hpass, hw, hne⟩ | ⟨left, hpass⟩)
    · cases before with
      | nil =>
          obtain ⟨rfl, rfl⟩ : a = w ∧ as = after := by simpa using hcut
          cases hpass
          exact .inr ⟨candidates, left, hw, hne, rfl⟩
      | cons b before =>
          obtain ⟨rfl, rfl⟩ : a = b ∧ as = before ++ w :: after := by simpa using hcut
          obtain ⟨tips', ha, hbefore⟩ := allPass_cons_iff.1 hpass
          exact .inl ⟨tips', _, ha, .winner before after w _ _ _ rfl hbefore hw hne, rfl⟩
    · obtain ⟨tips', ha, has⟩ := allPass_cons_iff.1 hpass
      exact .inl ⟨tips', _, ha, .nobody left has, rfl⟩
  · rintro (⟨tips', d', ha, hrest, rfl⟩ | ⟨candidates, left, ha, hne, rfl⟩)
    · cases hrest with
      | winner before after w candidates passed left hcut hpass hw hne =>
          exact .winner (a :: before) after w _ _ _ (by simp [hcut]) (.cons ha hpass) hw hne
      | nobody left hpass => exact .nobody left (.cons ha hpass)
    · exact .winner [] as a _ _ _ rfl (.nil tips) ha hne

lemma faultsAt_cons_iff :
    FaultsAt snapshot (a :: as) tips f ↔ a.generate snapshot tips = .error f ∨
      ∃ tips', a.generate snapshot tips = .ok ([], tips') ∧ FaultsAt snapshot as tips' f := by
  constructor
  · rintro ⟨before, b, after, passed, hcut, hpass, hb⟩
    cases before with
    | nil =>
        obtain ⟨rfl, rfl⟩ : a = b ∧ as = after := by simpa using hcut
        cases hpass
        exact .inl hb
    | cons c before =>
        obtain ⟨rfl, rfl⟩ : a = c ∧ as = before ++ b :: after := by simpa using hcut
        obtain ⟨tips', ha, hbefore⟩ := allPass_cons_iff.1 hpass
        exact .inr ⟨tips', ha, before, b, after, passed, rfl, hbefore, hb⟩
  · rintro (ha | ⟨tips', ha, before, b, after, passed, rfl, hpass, hb⟩)
    · exact ⟨[], a, as, tips, rfl, .nil tips, ha⟩
    · exact ⟨a :: before, b, after, passed, rfl, .cons ha hpass, hb⟩

lemma not_faultsAt_nil : ¬ FaultsAt (P := P) snapshot [] tips f := by
  rintro ⟨before, a, after, passed, hcut, -⟩
  simp at hcut

end rows

/-! ## A dispatch does that -/

lemma dispatchFrom_eq_ok_iff :
    dispatchFrom place snapshot i tips es = .ok d ↔
      DispatchedTo snapshot (recognitionsFrom place i es) tips d := by
  induction es generalizing i tips d with
  | nil => simp [dispatchFrom, recognitionsFrom_nil, dispatchedTo_nil_iff, eq_comm]
  | cons entry rest ih =>
      cases hctx : entry.classify place with
      | none => rw [dispatchFrom_cons_of_none hctx, recognitionsFrom_cons_of_none hctx, ih]
      | some ctx =>
          rw [recognitionsFrom_cons_of_some hctx, dispatchedTo_cons_iff]
          constructor
          · intro h
            obtain ⟨⟨candidates, left⟩, hg, ⟨rfl, d', hd', rfl⟩ | ⟨hne, rfl⟩⟩ :=
              exists_of_dispatchFrom_cons hctx h
            · exact .inl ⟨left, d', hg, ih.1 hd', rfl⟩
            · exact .inr ⟨candidates, left, hg, hne, rfl⟩
          · rw [dispatchFrom_cons_of_some hctx]
            rintro (⟨tips', d', hg, hd', rfl⟩ | ⟨candidates, left, hg, hne, rfl⟩)
            · simp only [Recognition.generate] at hg
              simp [hg, Except.bind, ih.2 hd', Except.map, Recognition.call]
            · simp only [Recognition.generate] at hg
              simp [hg, Except.bind, hne, Recognition.call, Recognition.outcome]

lemma dispatchFrom_eq_error_iff :
    dispatchFrom place snapshot i tips es = .error f ↔
      FaultsAt snapshot (recognitionsFrom place i es) tips f := by
  induction es generalizing i tips with
  | nil => simp [dispatchFrom, recognitionsFrom_nil, not_faultsAt_nil]
  | cons entry rest ih =>
      cases hctx : entry.classify place with
      | none => rw [dispatchFrom_cons_of_none hctx, recognitionsFrom_cons_of_none hctx, ih]
      | some ctx =>
          rw [recognitionsFrom_cons_of_some hctx, faultsAt_cons_iff, dispatchFrom_cons_of_some hctx]
          simp only [Recognition.generate, ← ih]
          cases entry.generate ctx.head snapshot tips with
          | error e => simp [Except.bind]
          | ok g =>
              obtain ⟨candidates, left⟩ := g
              by_cases hnil : candidates = []
              · cases hrest : dispatchFrom place snapshot (i + 1) left rest <;>
                  simp [Except.bind, Except.map, hnil, hrest]
              · simp [Except.bind, hnil]

/-! ## Which calls are made -/

lemma mem_recognitionsFrom_iff {a : Recognition P} :
    a ∈ recognitionsFrom place i es ↔ i ≤ a.position ∧
      es[a.position - i]? = some a.completer ∧
      a.completer.classify place = some a.context := by
  simp only [recognitionsFrom, List.mem_filterMap, Option.map_eq_some_iff, Prod.exists,
    List.mk_mem_zipIdx_iff_le_and_getElem?_sub]
  constructor
  · rintro ⟨entry, j, ⟨hj, hentry⟩, ctx, hctx, rfl⟩
    exact ⟨hj, hentry, hctx⟩
  · rintro ⟨hi, hentry, hctx⟩
    exact ⟨a.completer, a.position, ⟨hi, hentry⟩, a.context, hctx, rfl⟩

lemma pairwise_recognitionsFrom (place : P) (i : Nat) (es : List (Completer P)) :
    (recognitionsFrom place i es).Pairwise fun a b => a.position < b.position := by
  induction es generalizing i with
  | nil => exact List.Pairwise.nil
  | cons entry rest ih =>
      cases hctx : entry.classify place with
      | none => rw [recognitionsFrom_cons_of_none hctx]; exact ih (i + 1)
      | some ctx =>
          rw [recognitionsFrom_cons_of_some hctx]
          refine List.pairwise_cons.2 ⟨?_, ih (i + 1)⟩
          intro b hb
          exact (mem_recognitionsFrom_iff.1 hb).1

/-- The calls are those of the first completers that recognise the place. -/
lemma DispatchedTo.calls_initial {as : List (Recognition P)} (h : DispatchedTo snapshot as tips d) :
    d.calls <+: as.map Recognition.call := by
  cases h with
  | winner before after w _ _ _ hcut =>
      exact ⟨after.map Recognition.call, by simp [hcut]⟩
  | nobody => exact List.prefix_refl _

lemma DispatchedTo.pairwise_calls (h : DispatchedTo snapshot (recognitionsFrom place i es) tips d) :
    d.calls.Pairwise fun c c' => c.completer < c'.completer := by
  have hall : ((recognitionsFrom place i es).map Recognition.call).Pairwise
      fun c c' => c.completer < c'.completer :=
    List.pairwise_map.2 (pairwise_recognitionsFrom place i es)
  exact hall.sublist h.calls_initial.sublist

/-! ## What is not called -/

/-- The same completers, but those at other positions than the given ones have other generators. -/
def withGenerators (called : Nat → Bool) (other : Nat → Generator) (i : Nat)
    (es : List (Completer P)) : List (Completer P) :=
  (es.zipIdx i).map fun e => if called e.2 then e.1 else { e.1 with generate := other e.2 }

section withGenerators

variable {called : Nat → Bool} {other : Nat → Generator}

lemma withGenerators_cons (called : Nat → Bool) (other : Nat → Generator) (i : Nat)
    (entry : Completer P) (rest : List (Completer P)) :
    withGenerators called other i (entry :: rest)
      = (if called i then entry else { entry with generate := other i })
        :: withGenerators called other (i + 1) rest := by
  simp [withGenerators]

/-- A dispatch does not depend on the generators that it does not call. -/
lemma dispatchFrom_withGenerators (h : dispatchFrom place snapshot i tips es = .ok d)
    (hcalled : ∀ c ∈ d.calls, called c.completer = true) :
    dispatchFrom place snapshot i tips (withGenerators called other i es) = .ok d := by
  refine dispatchFrom_induction (motive := fun i tips es d =>
    (∀ c ∈ d.calls, called c.completer = true) →
    dispatchFrom place snapshot i tips (withGenerators called other i es) = .ok d)
    ?_ ?_ ?_ ?_ h hcalled
  · intro i tips _
    rfl
  · intro i tips entry rest d hctx ih hcalled
    rw [withGenerators_cons, dispatchFrom_cons_of_none (by split <;> exact hctx)]
    exact ih hcalled
  · intro i tips entry rest ctx g d hctx hg hnil ih hcalled
    have hfirst : called i = true := hcalled ⟨i, ctx.head⟩ List.mem_cons_self
    have hrest := ih fun c hc => hcalled c (List.mem_cons_of_mem _ hc)
    rw [withGenerators_cons, if_pos hfirst, dispatchFrom_cons_of_some hctx, hg]
    simp [Except.bind, hnil, hrest, Except.map]
  · intro i tips entry rest ctx g hctx hg hne hcalled
    have hfirst : called i = true := hcalled ⟨i, ctx.head⟩ List.mem_cons_self
    rw [withGenerators_cons, if_pos hfirst, dispatchFrom_cons_of_some hctx, hg]
    simp [Except.bind, hne]

end withGenerators

/-! ## The policy -/

/-- What a dispatch does with a row of completers. -/
structure Policy (es : List (Completer P)) (place : P) (snapshot : Snapshot) : Prop where
  dispatched : ∀ d, dispatch es place snapshot = .ok d ↔
    DispatchedTo snapshot (recognitions place es) [] d
  faults : ∀ f, dispatch es place snapshot = .error f ↔
    FaultsAt snapshot (recognitions place es) [] f
  /-- Where the generators give a result, so does the dispatch. -/
  returns : (∀ a ∈ recognitions place es, ∀ tips, ∃ g, a.generate snapshot tips = .ok g) →
    ∃ d, dispatch es place snapshot = .ok d
  /-- No generator is called twice, and none before one that stands in front of it. -/
  inOrder : ∀ d, dispatch es place snapshot = .ok d →
    d.calls.Pairwise fun c c' => c.completer < c'.completer
  /-- Only completers that recognise the place are called, each with its own head. -/
  ownHead : ∀ d, dispatch es place snapshot = .ok d → ∀ c ∈ d.calls, ∃ entry ctx,
    es[c.completer]? = some entry ∧ entry.classify place = some ctx ∧ c.head = ctx.head
  uncalled : ∀ d, dispatch es place snapshot = .ok d → ∀ other : Nat → Generator,
    dispatch (withGenerators (fun i => d.calls.any (·.completer = i)) other 0 es) place snapshot
      = .ok d
  nobody : ∀ d, dispatch es place snapshot = .ok d → d.outcome.candidates = [] →
    d.outcome.completer = none ∧ d.outcome.context = none ∧ d.outcome.head = ""

/-- **A dispatch asks those that recognise the place, in order and up to the first with
candidates**, whatever the completers are. -/
theorem dispatch_policy (es : List (Completer P)) (place : P) (snapshot : Snapshot) :
    Policy es place snapshot := by
  have hdispatched : ∀ {d}, dispatch es place snapshot = .ok d →
      DispatchedTo snapshot (recognitionsFrom place 0 es) [] d := dispatchFrom_eq_ok_iff.1
  refine ⟨fun d => dispatchFrom_eq_ok_iff, fun f => dispatchFrom_eq_error_iff, ?_,
    fun d h => (hdispatched h).pairwise_calls, ?_, ?_, ?_⟩
  · intro htotal
    cases hd : dispatch es place snapshot with
    | ok d => exact ⟨d, rfl⟩
    | error f =>
        obtain ⟨before, a, after, passed, hcut, -, ha⟩ := dispatchFrom_eq_error_iff.1 hd
        obtain ⟨g, hg⟩ := htotal a (by simp [recognitions, hcut]) passed
        simp [ha] at hg
  · intro d h c hc
    obtain ⟨a, ha, rfl⟩ := List.mem_map.1 ((hdispatched h).calls_initial.subset hc)
    obtain ⟨-, hentry, hctx⟩ := mem_recognitionsFrom_iff.1 ha
    exact ⟨a.completer, a.context, hentry, hctx, rfl⟩
  · intro d h other
    refine dispatchFrom_withGenerators h ?_
    intro c hc
    simpa using ⟨c, hc, rfl⟩
  · intro d h hnil
    cases hdispatched h with
    | winner _ _ _ candidates _ _ _ _ _ hne => exact absurd hnil hne
    | nobody => exact ⟨rfl, rfl, rfl⟩

end LineShell
