import LineShell.Proofs.OneContext
import LineShell.Session

/-!
# Completing is reading

A completion request looks at a session and leaves nothing behind but its tips, which wait to be
shown.  Lines are evaluated without a look at those, so a session runs as it would have run without
any of its completions, and what is completed in between is the same too.  The tips themselves are
a queue: each is shown once, in the order in which they came up.

* `Session.exists_found` — the tips have no part in what a completion finds, and they are all that
  it changes.
* `Session.answer_withTips` — with other tips, every request is answered alike.
* `Thinned` — a row of requests without some of its completions.
* `Session.Undisturbed` — what completions do not do to a session.
* **`completing_is_reading`** — no session is disturbed by what is completed in it.
-/

namespace LineShell

variable {M : Type}

/-! ## Requests and answers -/

def Request.IsCompletion : Request → Prop
  | complete _ _ | suggest _ _ _ => True
  | evaluate _ | showTips => False

lemma Request.isCompletion_or (r : Request) :
    r.IsCompletion ∨ (∃ line, r = .evaluate line) ∨ r = .showTips := by
  cases r with
  | complete line pos => exact .inl trivial
  | suggest caller line pos => exact .inl trivial
  | evaluate line => exact .inr (.inl ⟨line, rfl⟩)
  | showTips => exact .inr (.inr rfl)

namespace Answer

/-- The tips that come up with an answer. -/
def produced : Answer → List String
  | completed outcome | suggested outcome _ => outcome.tips
  | evaluated _ | tips _ => []

/-- The tips that an answer shows. -/
def shown : Answer → List String
  | tips shown => shown
  | evaluated _ | completed _ | suggested _ _ => []

/-- An answer but for the tips that it shows.  Those of an outcome stay with it. -/
def withoutShown : Answer → Answer
  | tips _ => tips []
  | a => a

end Answer

/-- A row of requests with their answers, and what is left of both without some of the
completions. -/
inductive Thinned : List Request → List Answer → List Request → List Answer → Prop
  | nil : Thinned [] [] [] []
  | keep {rs rs' : List Request} {as as' : List Answer} (r : Request) (a : Answer) :
      Thinned rs as rs' as' → Thinned (r :: rs) (a :: as) (r :: rs') (a :: as')
  | drop {rs rs' : List Request} {as as' : List Answer} {r : Request} (a : Answer) :
      r.IsCompletion → Thinned rs as rs' as' → Thinned (r :: rs) (a :: as) rs' as'

namespace Session

variable {host : Host M} {settings : Settings}

/-- The same session, but for the tips that wait. -/
def withTips (s : Session M) (tips : List String) : Session M :=
  { s with tips := tips }

/-- What there is to complete at a position of a line.  The tips that wait have no part in it. -/
def outcomeAt (host : Host M) (settings : Settings) (line : String) (pos : Nat) (s : Session M) :
    Except Fault Outcome :=
  LineShell.complete (standardCompleters settings (host.list s.machine)) line pos s.snapshot

/-! ## One request -/

lemma complete_withTips (line : String) (pos : Nat) (s : Session M) (tips : List String) :
    (s.withTips tips).complete host settings line pos
      = (s.outcomeAt host settings line pos).map fun o => (o, s.withTips (tips ++ o.tips)) :=
  rfl

lemma exists_outcomeAt (hcapacity : settings.channelCapacity ≤ Channel.maxCapacity) (line : String)
    (pos : Nat) (s : Session M) : ∃ o, s.outcomeAt host settings line pos = .ok o :=
  (servedOnce settings line pos s.snapshot).answered hcapacity _

/-- A completion answers with an outcome that the tips that wait have no part in.  All that it
changes is that those of the outcome wait too. -/
lemma exists_found (s : Session M) {r : Request} (hr : r.IsCompletion) :
    ∃ (found : Except Fault Outcome) (reply : Outcome → Answer),
      (settings.channelCapacity ≤ Channel.maxCapacity → ∃ o, found = .ok o) ∧
      (∀ o, (reply o).produced = o.tips ∧ (reply o).shown = []) ∧
      ∀ tips, (s.withTips tips).answer host settings r
        = found.map fun o => (reply o, s.withTips (tips ++ o.tips)) := by
  match r, hr with
  | .complete line pos, _ =>
      refine ⟨s.outcomeAt host settings line pos, .completed,
        fun hcapacity => exists_outcomeAt hcapacity line pos s, fun o => ⟨rfl, rfl⟩, fun tips => ?_⟩
      rw [answer, complete_withTips]
      cases s.outcomeAt host settings line pos <;> rfl
  | .suggest caller line pos, _ =>
      let cursor := min pos (byteSize line.toList)
      by_cases hwait : caller.canWait = true
      · refine ⟨s.outcomeAt host settings line cursor, fun o => .suggested o (o.suggestions cursor),
          fun hcapacity => exists_outcomeAt hcapacity line cursor s, fun o => ⟨rfl, rfl⟩,
          fun tips => ?_⟩
        rw [answer, suggest, if_pos hwait, complete_withTips]
        cases s.outcomeAt host settings line cursor <;> rfl
      · refine ⟨.ok (.nothing []), fun o => .suggested o [], fun _ => ⟨_, rfl⟩,
          fun o => ⟨rfl, rfl⟩, fun tips => ?_⟩
        rw [answer, suggest, if_neg hwait, Except.map, Outcome.nothing, List.append_nil]
        rfl

lemma answer_of_completion {s t : Session M} {r : Request} (hr : r.IsCompletion) {a : Answer}
    (h : s.answer host settings r = .ok (a, t)) :
    a.shown = [] ∧ ∀ tips, (s.withTips tips).answer host settings r
      = .ok (a, s.withTips (tips ++ a.produced)) := by
  obtain ⟨found, reply, -, hreply, hanswer⟩ := s.exists_found hr
  have hown := h.symm.trans (hanswer s.tips)
  cases found with
  | error e => exact absurd hown (by simp [Except.map])
  | ok o =>
      obtain ⟨rfl, -⟩ := Prod.mk.inj (Except.ok.inj hown)
      refine ⟨(hreply o).2, fun tips => ?_⟩
      rw [hanswer, (hreply o).1]
      rfl

/-- A completion changes the tips that wait and nothing else. -/
lemma eq_withTips_of_completion {s t : Session M} {r : Request} (hr : r.IsCompletion) {a : Answer}
    (h : s.answer host settings r = .ok (a, t)) : t = s.withTips (s.tips ++ a.produced) :=
  (Prod.mk.inj (Except.ok.inj (h.symm.trans ((answer_of_completion hr h).2 s.tips)))).2

/-- With other tips, a request is answered alike and leaves the same session but for the tips. -/
lemma answer_withTips {s t : Session M} {r : Request} {a : Answer}
    (h : s.answer host settings r = .ok (a, t)) (tips : List String) :
    ∃ b tips', (s.withTips tips).answer host settings r = .ok (b, t.withTips tips') ∧
      b.withoutShown = a.withoutShown := by
  rcases r.isCompletion_or with hr | ⟨line, rfl⟩ | rfl
  · obtain rfl := eq_withTips_of_completion hr h
    exact ⟨a, _, (answer_of_completion hr h).2 tips, rfl⟩
  · obtain ⟨rfl, rfl⟩ := Prod.mk.inj (Except.ok.inj h)
    exact ⟨_, tips, rfl, rfl⟩
  · obtain ⟨rfl, rfl⟩ := Prod.mk.inj (Except.ok.inj h)
    exact ⟨.tips tips, [], rfl, rfl⟩

/-- Tips that are shown and then those that wait are the tips that waited and then the new ones. -/
lemma shown_append_tips {s t : Session M} {r : Request} {a : Answer}
    (h : s.answer host settings r = .ok (a, t)) : a.shown ++ t.tips = s.tips ++ a.produced := by
  rcases r.isCompletion_or with hr | ⟨line, rfl⟩ | rfl
  · rw [(answer_of_completion hr h).1, eq_withTips_of_completion hr h]
    rfl
  · obtain ⟨rfl, rfl⟩ := Prod.mk.inj (Except.ok.inj h)
    exact (List.append_nil _).symm
  · obtain ⟨rfl, rfl⟩ := Prod.mk.inj (Except.ok.inj h)
    rfl

lemma exists_answer_eq_ok (hcapacity : settings.channelCapacity ≤ Channel.maxCapacity)
    (s : Session M) (r : Request) : ∃ a t, s.answer host settings r = .ok (a, t) := by
  rcases r.isCompletion_or with hr | ⟨line, rfl⟩ | rfl
  · obtain ⟨found, reply, hfound, -, hanswer⟩ := s.exists_found hr
    obtain ⟨o, rfl⟩ := hfound hcapacity
    exact ⟨_, _, hanswer s.tips⟩
  · exact ⟨_, _, rfl⟩
  · exact ⟨_, _, rfl⟩

/-! ## A row of requests -/

lemma answers_cons_eq_ok_iff {s t : Session M} {r : Request} {rs : List Request}
    {as : List Answer} :
    s.answers host settings (r :: rs) = .ok (as, t) ↔
      ∃ a u as', s.answer host settings r = .ok (a, u) ∧
        u.answers host settings rs = .ok (as', t) ∧ as = a :: as' := by
  constructor
  · intro h
    rw [answers] at h
    cases ha : s.answer host settings r with
    | error e =>
        rw [ha] at h
        exact absurd h (by simp [bind, Except.bind])
    | ok p =>
        rw [ha] at h
        cases has : p.2.answers host settings rs with
        | error e => exact absurd h (by simp [bind, Except.bind, has])
        | ok q =>
            obtain ⟨rfl, rfl⟩ : p.1 :: q.1 = as ∧ q.2 = t := by
              simpa [bind, Except.bind, has, pure, Except.pure] using h
            exact ⟨p.1, p.2, q.1, rfl, has, rfl⟩
  · rintro ⟨a, u, as', ha, has, rfl⟩
    rw [answers, ha]
    simp [bind, Except.bind, has, pure, Except.pure]

lemma exists_answers_eq_ok (hcapacity : settings.channelCapacity ≤ Channel.maxCapacity)
    (s : Session M) (rs : List Request) : ∃ as t, s.answers host settings rs = .ok (as, t) := by
  induction rs generalizing s with
  | nil => exact ⟨_, _, rfl⟩
  | cons r rs ih =>
      obtain ⟨a, u, ha⟩ := exists_answer_eq_ok hcapacity s r
      obtain ⟨as, t, has⟩ := ih u
      exact ⟨_, _, answers_cons_eq_ok_iff.2 ⟨a, u, as, ha, has, rfl⟩⟩

/-- Without some of its completions, and with other tips to begin with, a row of requests is
answered as before where it is left. -/
lemma answers_of_thinned {rs rs' : List Request} {as kept : List Answer}
    (hthinned : Thinned rs as rs' kept) {s t : Session M}
    (h : s.answers host settings rs = .ok (as, t)) (tips : List String) :
    ∃ as' tips', (s.withTips tips).answers host settings rs' = .ok (as', t.withTips tips') ∧
      as'.map Answer.withoutShown = kept.map Answer.withoutShown := by
  induction hthinned generalizing s tips with
  | nil =>
      obtain ⟨-, rfl⟩ := Prod.mk.inj (Except.ok.inj h)
      exact ⟨[], tips, rfl, rfl⟩
  | keep r a hthinned ih =>
      obtain ⟨b, u, as, ha, has, hcons⟩ := answers_cons_eq_ok_iff.1 h
      obtain ⟨rfl, rfl⟩ := List.cons.inj hcons
      obtain ⟨b, between, hb, hba⟩ := answer_withTips ha tips
      obtain ⟨bs, after, hbs, hbsas⟩ := ih has between
      refine ⟨b :: bs, after, answers_cons_eq_ok_iff.2 ⟨b, _, bs, hb, hbs, rfl⟩, ?_⟩
      rw [List.map_cons, List.map_cons, hba, hbsas]
  | drop a hr hthinned ih =>
      obtain ⟨b, u, as, ha, has, hcons⟩ := answers_cons_eq_ok_iff.1 h
      obtain ⟨rfl, rfl⟩ := List.cons.inj hcons
      obtain rfl := eq_withTips_of_completion hr ha
      exact ih has tips

/-- The tips are a queue: those that were shown and then those that wait are, in order, those that
waited at first and then all that came up. -/
lemma flatMap_shown_append_tips {s t : Session M} {rs : List Request} {as : List Answer}
    (h : s.answers host settings rs = .ok (as, t)) :
    as.flatMap Answer.shown ++ t.tips = s.tips ++ as.flatMap Answer.produced := by
  induction rs generalizing s as with
  | nil =>
      obtain ⟨rfl, rfl⟩ := Prod.mk.inj (Except.ok.inj h)
      exact (List.append_nil _).symm
  | cons r rs ih =>
      obtain ⟨a, u, as, ha, has, rfl⟩ := answers_cons_eq_ok_iff.1 h
      rw [List.flatMap_cons, List.flatMap_cons, List.append_assoc, ih has, ← List.append_assoc,
        shown_append_tips ha, List.append_assoc]

/-- What is answered up to a point does not depend on what is asked behind it. -/
lemma exists_answers_take {s t : Session M} {rs : List Request} {as : List Answer}
    (h : s.answers host settings rs = .ok (as, t)) (k : Nat) :
    ∃ u, s.answers host settings (rs.take k) = .ok (as.take k, u) := by
  induction rs generalizing s as k with
  | nil =>
      obtain ⟨rfl, rfl⟩ := Prod.mk.inj (Except.ok.inj h)
      exact ⟨s, by simp [answers]⟩
  | cons r rs ih =>
      obtain ⟨a, u, as, ha, has, rfl⟩ := answers_cons_eq_ok_iff.1 h
      cases k with
      | zero => exact ⟨s, rfl⟩
      | succ k =>
          obtain ⟨v, hv⟩ := ih has k
          exact ⟨v, answers_cons_eq_ok_iff.2 ⟨a, u, _, ha, hv, rfl⟩⟩

/-! ## Whole sessions -/

/-- What completions do not do to a session, whatever is asked of it. -/
structure Undisturbed (host : Host M) (settings : Settings) (s : Session M) (rs : List Request) :
    Prop where
  /-- Every request is answered, if a channel can have the capacity that is set. -/
  answered : settings.channelCapacity ≤ Channel.maxCapacity →
    ∃ as t, s.answers host settings rs = .ok (as, t)
  /-- Without any of the completions, all other requests are answered as they were and the session
  ends up with the same scope, machine and programs.  Only tips that are shown can be missing. -/
  thinned : ∀ as t rs' kept, s.answers host settings rs = .ok (as, t) → Thinned rs as rs' kept →
    ∃ as' t', s.answers host settings rs' = .ok (as', t') ∧
      as'.map Answer.withoutShown = kept.map Answer.withoutShown ∧
      t'.scope = t.scope ∧ t'.machine = t.machine ∧ t'.externals = t.externals
  /-- At every point, the tips shown and then those that wait are the tips that came up so far. -/
  delivered : ∀ as t k, s.answers host settings rs = .ok (as, t) →
    ∃ u, s.answers host settings (rs.take k) = .ok (as.take k, u) ∧
      (as.take k).flatMap Answer.shown ++ u.tips
        = s.tips ++ (as.take k).flatMap Answer.produced

end Session

/-- **Completing is reading**: a completion changes the tips alone, and no session is disturbed by
those in it. -/
theorem completing_is_reading (host : Host M) (settings : Settings) (s : Session M) :
    (∀ r a t, Request.IsCompletion r → s.answer host settings r = .ok (a, t) →
      t = s.withTips (s.tips ++ a.produced)) ∧
    ∀ rs, s.Undisturbed host settings rs := by
  refine ⟨fun r a t hr h => Session.eq_withTips_of_completion hr h, fun rs => ⟨?_, ?_, ?_⟩⟩
  · exact fun hcapacity => Session.exists_answers_eq_ok hcapacity s rs
  · intro as t rs' kept h hthinned
    obtain ⟨as', tips, has', hkept⟩ := Session.answers_of_thinned hthinned h s.tips
    exact ⟨as', _, has', hkept, rfl, rfl, rfl⟩
  · intro as t k h
    obtain ⟨u, hu⟩ := Session.exists_answers_take h k
    exact ⟨u, hu, Session.flatMap_shown_append_tips hu⟩

end LineShell
