import LineShell.Completion.Registry
import Mathlib.Data.List.Perm.Basic
import Mathlib.Data.List.Forall2

/-!
# Dispatch to any completers

What holds of a row of completers whatever their classifiers and generators are.  All follows from
what one completer adds: nothing if it does not recognise the place, and otherwise one call of its
generator.

* `Completer.accepts` — whether a completer recognises a place.
* `dispatchFrom_induction` — the one induction on a dispatch that ends well.
* `length_calls_le`, `length_tips_le` — calls are counted by the completers that recognise the
  place, and tips by the calls.
* `map_outcome_dispatchFrom_filter` — the other completers might as well not be there.
* **`map_outcome_dispatch_perm`** — where no two completers recognise the place, their order makes
  no difference.
-/

namespace LineShell

variable {P : Type} {place : P} {snapshot : Snapshot}

/-- Whether a completer recognises a place. -/
def Completer.accepts (place : P) (c : Completer P) : Bool :=
  (c.classify place).isSome

/-! ## One completer -/

lemma dispatchFrom_cons_of_none {entry : Completer P} (h : entry.classify place = none)
    (i : Nat) (tips : List String) (rest : List (Completer P)) :
    dispatchFrom place snapshot i tips (entry :: rest)
      = dispatchFrom place snapshot (i + 1) tips rest := by
  rw [dispatchFrom, h]

/-- A completer that recognises the place has its generator called, and hands on to the rest if it
finds nothing. -/
lemma dispatchFrom_cons_of_some {entry : Completer P} {ctx : Context}
    (h : entry.classify place = some ctx) (i : Nat) (tips : List String)
    (rest : List (Completer P)) :
    dispatchFrom place snapshot i tips (entry :: rest)
      = (entry.generate ctx.head snapshot tips).bind fun g =>
          if g.1 = [] then
            (dispatchFrom place snapshot (i + 1) g.2 rest).map (·.after ⟨i, ctx.head⟩)
          else .ok ⟨[⟨i, ctx.head⟩], ⟨some entry.name, some ctx, g.1, g.2⟩⟩ := by
  rw [dispatchFrom, h]
  rfl

lemma exists_of_dispatchFrom_cons {entry : Completer P} {ctx : Context}
    (h : entry.classify place = some ctx) {i : Nat} {tips : List String}
    {rest : List (Completer P)} {d : Dispatch}
    (hd : dispatchFrom place snapshot i tips (entry :: rest) = .ok d) :
    ∃ g, entry.generate ctx.head snapshot tips = .ok g ∧
      (g.1 = [] ∧ (∃ d', dispatchFrom place snapshot (i + 1) g.2 rest = .ok d' ∧
          d = d'.after ⟨i, ctx.head⟩) ∨
        g.1 ≠ [] ∧ d = ⟨[⟨i, ctx.head⟩], ⟨some entry.name, some ctx, g.1, g.2⟩⟩) := by
  rw [dispatchFrom_cons_of_some h] at hd
  cases hg : entry.generate ctx.head snapshot tips with
  | error e => rw [hg] at hd; exact absurd hd (by simp [Except.bind])
  | ok g =>
      rw [hg] at hd
      refine ⟨g, rfl, ?_⟩
      by_cases hnil : g.1 = []
      · rw [Except.bind, if_pos hnil] at hd
        cases hd' : dispatchFrom place snapshot (i + 1) g.2 rest with
        | error e => rw [hd'] at hd; exact absurd hd (by simp [Except.map])
        | ok d' =>
            rw [hd'] at hd
            exact .inl ⟨hnil, d', rfl, (Except.ok.inj hd).symm⟩
      · rw [Except.bind, if_neg hnil] at hd
        exact .inr ⟨hnil, (Except.ok.inj hd).symm⟩

/-- What holds of a dispatch that ends well, by what its first completer does: it does not
recognise the place, it finds nothing, or it wins. -/
theorem dispatchFrom_induction
    {motive : Nat → List String → List (Completer P) → Dispatch → Prop}
    (nil : ∀ i tips, motive i tips [] ⟨[], .nothing tips⟩)
    (reject : ∀ i tips entry rest d, entry.classify place = none →
      motive (i + 1) tips rest d → motive i tips (entry :: rest) d)
    (pass : ∀ i tips entry rest ctx g d, entry.classify place = some ctx →
      entry.generate ctx.head snapshot tips = .ok g → g.1 = [] → motive (i + 1) g.2 rest d →
      motive i tips (entry :: rest) (d.after ⟨i, ctx.head⟩))
    (win : ∀ i tips entry rest ctx g, entry.classify place = some ctx →
      entry.generate ctx.head snapshot tips = .ok g → g.1 ≠ [] →
      motive i tips (entry :: rest) ⟨[⟨i, ctx.head⟩], ⟨some entry.name, some ctx, g.1, g.2⟩⟩)
    {i : Nat} {tips : List String} {es : List (Completer P)} {d : Dispatch}
    (h : dispatchFrom place snapshot i tips es = .ok d) : motive i tips es d := by
  induction es generalizing i tips d with
  | nil =>
      obtain rfl := Except.ok.inj h
      exact nil i tips
  | cons entry rest ih =>
      cases hctx : entry.classify place with
      | none =>
          rw [dispatchFrom_cons_of_none hctx] at h
          exact reject i tips entry rest d hctx (ih h)
      | some ctx =>
          obtain ⟨g, hg, ⟨hnil, d', hd', rfl⟩ | ⟨hne, rfl⟩⟩ := exists_of_dispatchFrom_cons hctx h
          · exact pass i tips entry rest ctx g d' hctx hg hnil (ih hd')
          · exact win i tips entry rest ctx g hctx hg hne

/-! ## Calls and tips -/

lemma accepts_of_some {entry : Completer P} {ctx : Context} (h : entry.classify place = some ctx) :
    entry.accepts place = true := by
  rw [Completer.accepts, h]
  rfl

lemma not_accepts_of_none {entry : Completer P} (h : entry.classify place = none) :
    ¬ entry.accepts place = true := by
  rw [Completer.accepts, h]
  exact Bool.false_ne_true

/-- Only completers that recognise the place have their generators called, each once at most. -/
theorem length_calls_le {i : Nat} {tips : List String} {es : List (Completer P)} {d : Dispatch}
    (h : dispatchFrom place snapshot i tips es = .ok d) :
    d.calls.length ≤ es.countP (Completer.accepts place) := by
  refine dispatchFrom_induction (motive := fun _ _ es d =>
    d.calls.length ≤ es.countP (Completer.accepts place)) ?_ ?_ ?_ ?_ h
  · intro _ _
    exact Nat.zero_le _
  · intro _ _ entry rest d hctx ih
    rwa [List.countP_cons_of_neg (not_accepts_of_none hctx)]
  · intro _ _ entry rest ctx _ d hctx _ _ ih
    rw [List.countP_cons_of_pos (accepts_of_some hctx)]
    exact Nat.succ_le_succ ih
  · intro _ _ entry rest ctx _ hctx _ _
    rw [List.countP_cons_of_pos (accepts_of_some hctx)]
    exact Nat.succ_le_succ (Nat.zero_le _)

/-- If no generator adds more than one tip, there are no more new tips than calls. -/
theorem length_tips_le {i : Nat} {tips : List String} {es : List (Completer P)} {d : Dispatch}
    (hgen : ∀ e ∈ es, ∀ head tips g, e.generate head snapshot tips = .ok g →
      g.2.length ≤ tips.length + 1)
    (h : dispatchFrom place snapshot i tips es = .ok d) :
    d.outcome.tips.length ≤ tips.length + d.calls.length := by
  refine dispatchFrom_induction (motive := fun _ tips es d =>
    (∀ e ∈ es, ∀ head tips g, e.generate head snapshot tips = .ok g →
      g.2.length ≤ tips.length + 1) →
    d.outcome.tips.length ≤ tips.length + d.calls.length) ?_ ?_ ?_ ?_ h hgen
  · intro _ tips _
    exact Nat.le_refl _
  · intro _ _ entry rest d _ ih hgen
    exact ih fun e he => hgen e (List.mem_cons_of_mem _ he)
  · intro _ tips entry rest ctx g d _ hg _ ih hgen
    have hone := hgen entry List.mem_cons_self _ _ _ hg
    have hrest := ih fun e he => hgen e (List.mem_cons_of_mem _ he)
    show d.outcome.tips.length ≤ tips.length + (d.calls.length + 1)
    omega
  · intro _ tips entry rest ctx g _ hg _ hgen
    exact hgen entry List.mem_cons_self _ _ _ hg

/-! ## The outcome -/

/-- Completers that do not recognise the place might as well not be there, and where the others
stand is not seen in the outcome. -/
theorem map_outcome_dispatchFrom_filter (i j : Nat) (tips : List String)
    (es : List (Completer P)) :
    (dispatchFrom place snapshot i tips es).map Dispatch.outcome
      = (dispatchFrom place snapshot j tips (es.filter (Completer.accepts place))).map
          Dispatch.outcome := by
  have hafter : ∀ (call : Call) (r : Except Fault Dispatch),
      (r.map (Dispatch.after call)).map Dispatch.outcome = r.map Dispatch.outcome := by
    intro call r
    cases r <;> rfl
  induction es generalizing i j tips with
  | nil => rfl
  | cons entry rest ih =>
      cases hctx : entry.classify place with
      | none =>
          rw [dispatchFrom_cons_of_none hctx, List.filter_cons_of_neg (not_accepts_of_none hctx)]
          exact ih (i + 1) j tips
      | some ctx =>
          rw [List.filter_cons_of_pos (accepts_of_some hctx), dispatchFrom_cons_of_some hctx,
            dispatchFrom_cons_of_some hctx]
          cases entry.generate ctx.head snapshot tips with
          | error e => rfl
          | ok g =>
              rw [Except.bind, Except.bind]
              split
              · rw [hafter, hafter]
                exact ih (i + 1) (j + 1) g.2
              · rfl

/-- Where no two completers recognise the place, their order makes no difference. -/
theorem map_outcome_dispatch_perm {es es' : List (Completer P)} (h : es.Perm es')
    (hone : es.countP (Completer.accepts place) ≤ 1) :
    (dispatch es place snapshot).map Dispatch.outcome
      = (dispatch es' place snapshot).map Dispatch.outcome := by
  have hfilter : es.filter (Completer.accepts place) = es'.filter (Completer.accepts place) := by
    have hperm := h.filter (Completer.accepts place)
    rw [List.countP_eq_length_filter] at hone
    match hes : es.filter (Completer.accepts place), hone with
    | [], _ => rw [hes] at hperm; exact hperm.nil_eq
    | [e], _ => rw [hes] at hperm; exact List.singleton_perm.1 hperm
  rw [dispatch, dispatch, map_outcome_dispatchFrom_filter 0 0, hfilter,
    ← map_outcome_dispatchFrom_filter]

/-- A dispatch reads no more of the generators than what they make of the heads that they are
given. -/
theorem dispatchFrom_congr {i : Nat} {tips : List String} {es es' : List (Completer P)}
    (h : List.Forall₂ (fun e e' => e.name = e'.name ∧ e.classify = e'.classify ∧
      ∀ ctx, e.classify place = some ctx → ∀ tips,
        e.generate ctx.head snapshot tips = e'.generate ctx.head snapshot tips) es es') :
    dispatchFrom place snapshot i tips es = dispatchFrom place snapshot i tips es' := by
  induction h generalizing i tips with
  | nil => rfl
  | @cons e e' rest rest' he _ ih =>
      obtain ⟨hname, hclassify, hgenerate⟩ := he
      cases hctx : e.classify place with
      | none =>
          have hctx' : e'.classify place = none := by rw [← hclassify, hctx]
          rw [dispatchFrom_cons_of_none hctx, dispatchFrom_cons_of_none hctx', ih]
      | some ctx =>
          have hctx' : e'.classify place = some ctx := by rw [← hclassify, hctx]
          rw [dispatchFrom_cons_of_some hctx, dispatchFrom_cons_of_some hctx',
            hgenerate ctx hctx, hname]
          simp only [ih]

theorem exists_dispatchFrom_eq_ok {es : List (Completer P)}
    (h : ∀ e ∈ es, ∀ head tips, ∃ g, e.generate head snapshot tips = .ok g) (i : Nat)
    (tips : List String) :
    ∃ d, dispatchFrom place snapshot i tips es = .ok d := by
  induction es generalizing i tips with
  | nil => exact ⟨_, rfl⟩
  | cons entry rest ih =>
      have ih := ih fun e he => h e (List.mem_cons_of_mem _ he)
      cases hctx : entry.classify place with
      | none =>
          rw [dispatchFrom_cons_of_none hctx]
          exact ih (i + 1) tips
      | some ctx =>
          obtain ⟨g, hg⟩ := h entry List.mem_cons_self ctx.head tips
          rw [dispatchFrom_cons_of_some hctx, hg, Except.bind]
          split
          · obtain ⟨d, hd⟩ := ih (i + 1) g.2
            exact ⟨d.after ⟨i, ctx.head⟩, by rw [hd]; rfl⟩
          · exact ⟨_, rfl⟩

end LineShell
