import LineShell.Files.Stream
import Mathlib.Order.WellFounded

/-!
# Streaming in whatever order

Producer and consumer of a listing take turns as they happen to be run.  What each step keeps is
said once, in `Transfer.Invariant`: an entry is received, under way or still to be sent, and the
counts of the consumer fit what it has received.  All that is said of whole runs follows: nothing
is lost or comes twice, nobody waits for ever, and every run ends in the same way.

* `Channel.drain_eq`, `Channel.drain_create` — the schedule that the shell runs delivers all that
  it was given, in order.
* `Transfer.Step.invariant`, `Transfer.Reachable.invariant` — what every step keeps, and so all
  states that can come about have.
* `Transfer.exists_step` — while the consumer is there and not at its end, there is a step to take.
* `Transfer.Step.work_lt` — a step leaves less to do, so no run goes on for ever.
* `Transfer.Reachable.take_drain` — the schedule that the shell runs is one of all.
* **`transfer_streams`** — every run delivers the listing, whatever the order of its steps.
-/

namespace LineShell

/-! ## The schedule of the shell -/

namespace Channel

variable {α : Type}

lemma effectiveCapacity_pos (capacity : Nat) : 0 < effectiveCapacity capacity := by
  simp [effectiveCapacity]

lemma fill_of_buffer_eq_nil {ch : Channel α} (hcapacity : 0 < ch.capacity)
    (h : ch.fill.buffer = []) : ch.buffer = [] ∧ ch.unsent = [] := by
  obtain ⟨hbuffer, htake⟩ := List.append_eq_nil_iff.1 h
  rcases List.take_eq_nil_iff.1 htake with hroom | hunsent
  · rw [hbuffer, List.length_nil] at hroom
    omega
  · exact ⟨hbuffer, hunsent⟩

lemma buffer_append_unsent_fill (ch : Channel α) :
    ch.fill.buffer ++ ch.fill.unsent = ch.buffer ++ ch.unsent := by
  show ch.buffer ++ ch.unsent.take _ ++ ch.unsent.drop _ = _
  rw [List.append_assoc, List.take_append_drop]

lemma drain_of_none {ch : Channel α} (h : ch.next? = none) : ch.drain = [] := by
  rw [drain]
  split
  · rfl
  · next h' => exact absurd (h.symm.trans h') (by simp)

lemma drain_of_some {ch d : Channel α} {a : α} (h : ch.next? = some (a, d)) :
    ch.drain = a :: d.drain := by
  rw [drain]
  split
  · next h' => exact absurd (h.symm.trans h') (by simp)
  · next h' =>
    obtain ⟨rfl, rfl⟩ := Prod.mk.inj (Option.some.inj (h.symm.trans h'))
    rfl

/-- A channel that can hold something delivers all that it was given, in order. -/
lemma drain_eq {ch : Channel α} (hcapacity : 0 < ch.capacity) :
    ch.drain = ch.buffer ++ ch.unsent := by
  induction hn : ch.pending using Nat.strongRecOn generalizing ch with
  | ind n ih =>
      subst hn
      have ih : ∀ d : Channel α, d.pending < ch.pending → 0 < d.capacity →
          d.drain = d.buffer ++ d.unsent := fun d hd hc => ih _ hd hc rfl
      rw [← buffer_append_unsent_fill]
      cases hbuffer : ch.fill.buffer with
      | nil =>
          have hnext : ch.next? = none := by
            unfold next?
            rw [hbuffer]
          have hunsent : ch.fill.unsent = [] := by
            show ch.unsent.drop _ = []
            rw [(fill_of_buffer_eq_nil hcapacity hbuffer).2, List.drop_nil]
          rw [drain_of_none hnext, hunsent]
          rfl
      | cons a rest =>
          have hnext : ch.next? = some (a, ⟨ch.capacity, ch.fill.unsent, rest⟩) := by
            unfold next?
            rw [hbuffer]
            rfl
          have hlt := pending_next? hnext
          have hrest := ih ⟨ch.capacity, ch.fill.unsent, rest⟩ (by omega) hcapacity
          rw [drain_of_some hnext, hrest]
          rfl

lemma exists_create_eq_ok {capacity : Nat} (h : capacity ≤ maxCapacity) (listing : List α) :
    ∃ ch, create capacity listing = .ok ch :=
  ⟨_, if_neg (Nat.not_lt.2 h)⟩

lemma eq_of_create {capacity : Nat} {listing : List α} {ch : Channel α}
    (h : create capacity listing = .ok ch) : ch = ⟨effectiveCapacity capacity, listing, []⟩ := by
  rw [create] at h
  split at h
  · exact absurd h (by simp)
  · exact (Except.ok.inj h).symm

lemma drain_create {capacity : Nat} {listing : List α} {ch : Channel α}
    (h : create capacity listing = .ok ch) : ch.drain = listing := by
  obtain rfl := eq_of_create h
  exact drain_eq (effectiveCapacity_pos capacity)

lemma next?_eq_none {ch : Channel α} (hcapacity : 0 < ch.capacity) (h : ch.next? = none) :
    ch.buffer = [] ∧ ch.unsent = [] := by
  unfold next? at h
  split at h
  · next hbuffer => exact fill_of_buffer_eq_nil hcapacity hbuffer
  · exact absurd h (by simp)

lemma next?_eq_some {ch d : Channel α} {a : α} (h : ch.next? = some (a, d)) :
    ∃ rest, ch.fill.buffer = a :: rest ∧ d = ⟨ch.capacity, ch.fill.unsent, rest⟩ := by
  unfold next? at h
  split at h
  · exact absurd h (by simp)
  · next b rest hbuffer =>
    obtain ⟨rfl, rfl⟩ := Prod.mk.inj (Option.some.inj h)
    exact ⟨rest, hbuffer, rfl⟩

end Channel

/-! ## What every step keeps -/

namespace Transfer

variable {α : Type} {listing : List α} {capacity calls : Nat} {start s t : Transfer α}

/-- All that the consumer has got, in the order in which it got it. -/
def received (s : Transfer α) : List α :=
  s.returned ++ s.drained

/-- Nothing is left to be done. -/
def Complete (capacity : Nat) (s : Transfer α) : Prop :=
  ∀ t, ¬ Step capacity s t

/-- What every step of a transfer keeps, the consumer having begun with so many single calls. -/
structure Invariant (listing : List α) (capacity calls : Nat) (s : Transfer α) : Prop where
  /-- An entry is received, under way or still to be sent.  Only a consumer that goes away takes
  with it what is under way. -/
  conserved : ∃ lost, s.received ++ lost ++ s.buffer ++ s.unsent = listing ∧
    (s.abandoned = false → lost = [])
  bounded : s.buffer.length ≤ Channel.effectiveCapacity capacity
  /-- The producer ends before its time only if nobody receives any more. -/
  sent : s.producerDone = true → s.abandoned = false → s.unsent = []
  /-- The drain comes after the single calls. -/
  drainedLast : s.drained = [] ∨ s.calls = 0
  /-- A single call that is over has returned an entry, unless there was none left. -/
  counted : s.returned.length + s.calls = calls ∨ s.returned.length + s.calls ≤ calls ∧
    s.producerDone = true ∧ s.buffer = [] ∧ s.drained = []
  ended : s.consumerDone = true →
    s.producerDone = true ∧ s.buffer = [] ∧ s.calls = 0 ∧ s.abandoned = false

lemma invariant_initial (listing : List α) (capacity calls : Nat) :
    (initial listing calls).Invariant listing capacity calls where
  conserved := ⟨[], by simp [initial, received]⟩
  bounded := by simp [initial]
  sent := by simp [initial]
  drainedLast := by simp [initial]
  counted := by simp [initial]
  ended := by simp [initial]

/-- Each step moves an entry on by one place, or is one of the two ends. -/
lemma Step.invariant (h : Step capacity s t) (hs : s.Invariant listing capacity calls) :
    t.Invariant listing capacity calls := by
  obtain ⟨⟨lost, hlisting, hlost⟩, hbounded, hsent, hdrained, hcounted, hended⟩ := hs
  cases h with
  | send a rest hunsent hproducer habandoned hroom =>
      refine ⟨⟨lost, ?_, hlost⟩, ?_, ?_, hdrained, ?_, ?_⟩
      · simpa [received, hunsent] using hlisting
      · simp only [List.length_append, List.length_singleton]
        omega
      · simp [hproducer]
      · simpa [hproducer] using hcounted
      · intro hconsumer
        simp [(hended hconsumer).1] at hproducer
  | finish hunsent hproducer =>
      refine ⟨⟨lost, hlisting, hlost⟩, hbounded, fun _ _ => hunsent, hdrained, ?_, ?_⟩
      · simpa [hproducer] using hcounted.imp_right fun h => absurd h.2.1 (by simp [hproducer])
      · intro hconsumer
        simp [(hended hconsumer).1] at hproducer
  | giveUp habandoned hproducer =>
      refine ⟨⟨lost, hlisting, hlost⟩, hbounded, ?_, hdrained, ?_, ?_⟩
      · simp [habandoned]
      · simpa [hproducer] using hcounted.imp_right fun h => absurd h.2.1 (by simp [hproducer])
      · intro hconsumer
        simp [(hended hconsumer).1] at hproducer
  | call a rest n hbuffer hcalls habandoned =>
      refine ⟨⟨lost, ?_, hlost⟩, ?_, hsent, ?_, ?_, ?_⟩
      · have hnone : s.drained = [] := by simpa [hcalls] using hdrained
        simpa [received, hnone, hlost habandoned, hbuffer] using hlisting
      · exact Nat.le_of_succ_le (by simpa [hbuffer] using hbounded)
      · exact .inl (by simpa [hcalls] using hdrained)
      · have hcounted : s.returned.length + (n + 1) = calls := by
          simpa [hbuffer, hcalls] using hcounted
        refine .inl ?_
        simp only [List.length_append, List.length_singleton]
        omega
      · intro hconsumer
        simp [(hended hconsumer).2.1] at hbuffer
  | callNone n hbuffer hproducer hcalls habandoned =>
      refine ⟨⟨lost, hlisting, hlost⟩, hbounded, hsent, ?_, ?_, ?_⟩
      · exact .inl (by simpa [hcalls] using hdrained)
      · have hnone : s.drained = [] := by simpa [hcalls] using hdrained
        refine .inr ⟨?_, hproducer, hbuffer, hnone⟩
        show s.returned.length + n ≤ calls
        omega
      · intro hconsumer
        simp [(hended hconsumer).2.2.1] at hcalls
  | drain a rest hbuffer hcalls hconsumer habandoned =>
      refine ⟨⟨lost, ?_, hlost⟩, ?_, hsent, .inr hcalls, ?_, ?_⟩
      · simpa [received, hlost habandoned, hbuffer] using hlisting
      · exact Nat.le_of_succ_le (by simpa [hbuffer] using hbounded)
      · simpa [hbuffer] using hcounted
      · simp [hconsumer]
  | stop hbuffer hproducer hcalls hconsumer habandoned =>
      exact ⟨⟨lost, hlisting, hlost⟩, hbounded, hsent, hdrained, hcounted,
        fun _ => ⟨hproducer, hbuffer, hcalls, habandoned⟩⟩
  | abandon hconsumer habandoned =>
      refine ⟨⟨s.buffer, ?_, by simp⟩, by simp, by simp, hdrained, ?_, by simp [hconsumer]⟩
      · simpa [received, hlost habandoned] using hlisting
      · exact hcounted.imp_right fun h => ⟨h.1, h.2.1, rfl, h.2.2.2⟩

lemma Reachable.invariant (h : Reachable capacity (initial listing calls) s) :
    s.Invariant listing capacity calls := by
  induction h with
  | start => exact invariant_initial listing capacity calls
  | step _ hstep ih => exact hstep.invariant ih

/-! ## Runs come to an end -/

/-- A bound on the number of steps that are still to be taken: an entry is sent and received, a
call is made, and producer and consumer come to their ends once. -/
def work (s : Transfer α) : Nat :=
  2 * s.unsent.length + s.buffer.length + s.calls + (!s.producerDone).toNat
    + (!s.consumerDone).toNat + (!s.abandoned).toNat

lemma Step.work_lt (h : Step capacity s t) : t.work < s.work := by
  cases h with
  | send a rest hunsent => simp [work, hunsent]; omega
  | finish _ hproducer | giveUp _ hproducer => simp [work, hproducer]
  | call a rest n hbuffer hcalls => simp [work, hbuffer, hcalls]; omega
  | callNone n _ _ hcalls => simp [work, hcalls]
  | drain a rest hbuffer => simp [work, hbuffer]
  | stop _ _ _ hconsumer => simp [work, hconsumer]
  | abandon _ habandoned =>
      simp only [work, habandoned, List.length_nil, Bool.not_true, Bool.not_false,
        Bool.toNat_true, Bool.toNat_false]
      omega

/-- No transfer goes on for ever. -/
lemma wellFounded_step (capacity : Nat) :
    WellFounded fun t s : Transfer α => Step capacity s t :=
  Subrelation.wf (fun h => h.work_lt) (measure work).wf

/-- A consumer that is there and not at its end never waits for a producer that waits for it. -/
lemma exists_step (hconsumer : s.consumerDone = false) (habandoned : s.abandoned = false) :
    ∃ t, Step capacity s t ∧ t.abandoned = false := by
  cases hbuffer : s.buffer with
  | cons a rest =>
      cases hcalls : s.calls with
      | zero => exact ⟨_, .drain s a rest hbuffer hcalls hconsumer habandoned, habandoned⟩
      | succ n => exact ⟨_, .call s a rest n hbuffer hcalls habandoned, habandoned⟩
  | nil =>
      cases hproducer : s.producerDone with
      | true =>
          cases hcalls : s.calls with
          | zero => exact ⟨_, .stop s hbuffer hproducer hcalls hconsumer habandoned, habandoned⟩
          | succ n => exact ⟨_, .callNone s n hbuffer hproducer hcalls habandoned, habandoned⟩
      | false =>
          cases hunsent : s.unsent with
          | nil => exact ⟨_, .finish s hunsent hproducer, habandoned⟩
          | cons a rest =>
              have hroom : s.buffer.length < Channel.effectiveCapacity capacity := by
                simpa [hbuffer] using Channel.effectiveCapacity_pos capacity
              exact ⟨_, .send s a rest hunsent hproducer habandoned hroom, habandoned⟩

lemma Complete.consumerDone (h : Complete capacity s) (habandoned : s.abandoned = false) :
    s.consumerDone = true := by
  by_contra hconsumer
  obtain ⟨t, hstep, -⟩ := exists_step (by simpa using hconsumer) habandoned
  exact h t hstep

lemma Invariant.complete (hs : s.Invariant listing capacity calls)
    (hconsumer : s.consumerDone = true) : Complete capacity s := by
  obtain ⟨hproducer, hbuffer, hcalls, habandoned⟩ := hs.ended hconsumer
  intro t hstep
  cases hstep <;> simp_all

/-- Where the consumer has come to its end, the single calls have returned the first entries and the
drain has delivered the others. -/
lemma Invariant.delivered (hs : s.Invariant listing capacity calls)
    (hconsumer : s.consumerDone = true) :
    s.returned = listing.take calls ∧ s.drained = listing.drop calls := by
  obtain ⟨hproducer, hbuffer, hcalls, habandoned⟩ := hs.ended hconsumer
  obtain ⟨lost, hlisting, hlost⟩ := hs.conserved
  have hall : s.returned ++ s.drained = listing := by
    simpa [received, hlost habandoned, hbuffer, hs.sent hproducer habandoned] using hlisting
  rcases hs.counted with hlength | ⟨hlength, -, -, hdrained⟩
  · have hlength : s.returned.length = calls := by simpa [hcalls] using hlength
    rw [← hall, ← hlength, List.take_left, List.drop_left]
    exact ⟨rfl, rfl⟩
  · have hreturned : s.returned = listing := by simpa [hdrained] using hall
    have hlength : listing.length ≤ calls := by simpa [hcalls, hreturned] using hlength
    rw [List.take_of_length_le hlength, List.drop_of_length_le hlength]
    exact ⟨hreturned, hdrained⟩

/-! ## A consumer that goes away -/

/-- Where nobody receives any more, the producer finishes next: nothing else is left to happen. -/
lemma Step.producerDone_of_abandoned (h : Step capacity s t) (habandoned : s.abandoned = true) :
    t.producerDone = true := by
  cases h with
  | finish | giveUp => rfl
  | send _ _ _ _ hnot | call _ _ _ _ _ hnot | callNone _ _ _ _ hnot | drain _ _ _ _ _ hnot
  | stop _ _ _ _ hnot | abandon _ hnot => simp [habandoned] at hnot

/-! ## The schedule of the shell is one of all -/

/-- A transfer that goes on: the channel in use, and what the consumer has got so far. -/
def running (ch : Channel α) (returned drained : List α) (calls : Nat) : Transfer α :=
  ⟨ch.unsent, ch.buffer, returned, drained, calls, false, false, false⟩

section schedule

variable {ch d : Channel α} {returned drained : List α} {n : Nat} {a : α}

/-- The producer may send as many entries as there is room for. -/
lemma Reachable.send (m : Nat) (unsent buffer : List α)
    (hroom : buffer.length + m ≤ Channel.effectiveCapacity capacity)
    (h : Reachable capacity start (running ⟨n, unsent, buffer⟩ returned drained calls)) :
    Reachable capacity start
      (running ⟨n, unsent.drop m, buffer ++ unsent.take m⟩ returned drained calls) := by
  induction m generalizing unsent buffer with
  | zero => simpa using h
  | succ m ih =>
      cases unsent with
      | nil => simpa using h
      | cons a rest =>
          have hsend := h.step (.send _ a rest rfl rfl rfl (by show buffer.length < _; omega))
          have hrest := ih rest (buffer ++ [a]) (by simp; omega) hsend
          simpa using hrest

lemma Reachable.fill (hcapacity : ch.capacity = Channel.effectiveCapacity capacity)
    (h : Reachable capacity start (running ch returned drained calls)) :
    Reachable capacity start (running ch.fill returned drained calls) := by
  by_cases hfull : ch.buffer.length ≤ ch.capacity
  · exact h.send (ch.capacity - ch.buffer.length) ch.unsent ch.buffer (by omega)
  · have hroom : ch.capacity - ch.buffer.length = 0 := by omega
    have hfill : ch.fill = ch := by simp [Channel.fill, hroom]
    rwa [hfill]

/-- A call that finds an entry: the producer fills the channel, and the consumer takes the first. -/
lemma Reachable.call (hcapacity : ch.capacity = Channel.effectiveCapacity capacity)
    (hnext : ch.next? = some (a, d))
    (h : Reachable capacity start (running ch returned drained (n + 1))) :
    Reachable capacity start (running d (returned ++ [a]) drained n) := by
  obtain ⟨rest, hbuffer, rfl⟩ := Channel.next?_eq_some hnext
  exact (h.fill hcapacity).step (.call _ a rest n hbuffer rfl rfl)

lemma Reachable.drainNext (hcapacity : ch.capacity = Channel.effectiveCapacity capacity)
    (hnext : ch.next? = some (a, d))
    (h : Reachable capacity start (running ch returned drained 0)) :
    Reachable capacity start (running d returned (drained ++ [a]) 0) := by
  obtain ⟨rest, hbuffer, rfl⟩ := Channel.next?_eq_some hnext
  exact (h.fill hcapacity).step (.drain _ a rest hbuffer rfl rfl rfl)

/-- Nothing is left in the channel: the producer finishes, and the consumer sees it. -/
lemma Reachable.callsNone
    (h : Reachable capacity start ⟨[], [], returned, drained, n, true, false, false⟩) :
    Reachable capacity start ⟨[], [], returned, drained, 0, true, true, false⟩ := by
  induction n with
  | zero => exact h.step (.stop _ rfl rfl rfl rfl rfl)
  | succ n ih => exact ih (h.step (.callNone _ n rfl rfl rfl rfl))

lemma Reachable.last (hcapacity : 0 < ch.capacity) (hnext : ch.next? = none)
    (h : Reachable capacity start (running ch returned drained n)) :
    Reachable capacity start ⟨[], [], returned, drained, 0, true, true, false⟩ := by
  obtain ⟨hbuffer, hunsent⟩ := Channel.next?_eq_none hcapacity hnext
  have hfinish := h.step (.finish _ hunsent rfl)
  rw [running, hbuffer, hunsent] at hfinish
  exact hfinish.callsNone

lemma Reachable.drain (hcapacity : ch.capacity = Channel.effectiveCapacity capacity)
    (h : Reachable capacity start (running ch returned drained 0)) :
    Reachable capacity start ⟨[], [], returned, drained ++ ch.drain, 0, true, true, false⟩ := by
  induction hm : ch.pending using Nat.strongRecOn generalizing ch drained with
  | ind m ih =>
      subst hm
      cases hnext : ch.next? with
      | none =>
          rw [Channel.drain_of_none hnext, List.append_nil]
          exact h.last (hcapacity ▸ Channel.effectiveCapacity_pos capacity) hnext
      | some p =>
          obtain ⟨a, d⟩ := p
          obtain ⟨rest, -, hd⟩ := Channel.next?_eq_some hnext
          have hlt := Channel.pending_next? hnext
          have hrest := ih d.pending (by omega) (by rw [hd, hcapacity])
            (h.drainNext hcapacity hnext) rfl
          rw [Channel.drain_of_some hnext]
          simpa using hrest

/-- Single calls and then the drain, as the shell makes them. -/
lemma Reachable.take_drain (hcapacity : ch.capacity = Channel.effectiveCapacity capacity)
    (h : Reachable capacity start (running ch returned [] n)) :
    Reachable capacity start
      ⟨[], [], returned ++ (ch.takeNext n).1, (ch.takeNext n).2.drain, 0, true, true, false⟩ := by
  induction n generalizing ch returned with
  | zero => simpa [Channel.takeNext] using h.drain hcapacity
  | succ n ih =>
      cases hnext : ch.next? with
      | none =>
          have hlast := h.last (hcapacity ▸ Channel.effectiveCapacity_pos capacity) hnext
          simpa [Channel.takeNext, hnext, Channel.drain_of_none hnext] using hlast
      | some p =>
          obtain ⟨a, d⟩ := p
          obtain ⟨rest, -, hd⟩ := Channel.next?_eq_some hnext
          have hrest := ih (by rw [hd, hcapacity]) (h.call hcapacity hnext)
          simpa [Channel.takeNext, hnext] using hrest

end schedule

/-! ## All runs -/

/-- What holds of a transfer wherever it stands, the consumer having begun with so many single
calls. -/
structure Streams (listing : List α) (capacity calls : Nat) (s : Transfer α) : Prop where
  /-- Nothing is lost and nothing comes twice. -/
  conserved : s.abandoned = false → s.received ++ s.buffer ++ s.unsent = listing
  bounded : s.buffer.length ≤ max capacity 1
  /-- While the consumer is not at its end, there is a step to take other than its going away. -/
  progress : s.abandoned = false → s.consumerDone = false →
    ∃ t, Step capacity s t ∧ t.abandoned = false
  /-- At the end of a run, the single calls have returned the first entries and the drain has
  delivered the others, all in order, and both sides have finished. -/
  delivered : s.abandoned = false → Complete capacity s →
    s.returned = listing.take calls ∧ s.drained = listing.drop calls ∧
    s.producerDone = true ∧ s.consumerDone = true
  /-- A consumer that goes away has got the first entries. -/
  prefixReceived : s.received <+: listing
  /-- The producer of a consumer that has gone away finishes, and at once. -/
  finishes : s.abandoned = true → s.producerDone = true ∨
    (∃ t, Step capacity s t) ∧ ∀ t, Step capacity s t → t.producerDone = true

lemma Invariant.streams (hs : s.Invariant listing capacity calls) :
    s.Streams listing capacity calls := by
  obtain ⟨lost, hlisting, hlost⟩ := hs.conserved
  refine ⟨?_, hs.bounded, ?_, ?_, ?_, ?_⟩
  · intro habandoned
    simpa [hlost habandoned] using hlisting
  · intro habandoned hconsumer
    exact exists_step hconsumer habandoned
  · intro habandoned hcomplete
    have hconsumer := hcomplete.consumerDone habandoned
    obtain ⟨hreturned, hdrained⟩ := hs.delivered hconsumer
    exact ⟨hreturned, hdrained, (hs.ended hconsumer).1, hconsumer⟩
  · exact ⟨lost ++ s.buffer ++ s.unsent, by simpa using hlisting⟩
  · intro habandoned
    cases hproducer : s.producerDone with
    | true => exact .inl rfl
    | false =>
        exact .inr ⟨⟨_, .giveUp s habandoned hproducer⟩,
          fun t hstep => hstep.producerDone_of_abandoned habandoned⟩

/-- **Every run delivers the listing**, whatever the capacity of the channel, the number of single
calls and the order of the steps.  No run goes on for ever, and the schedule of the shell is one
of them. -/
theorem transfer_streams (listing : List α) (capacity calls : Nat) :
    (∀ s, Reachable capacity (initial listing calls) s → s.Streams listing capacity calls) ∧
    (WellFounded fun t s : Transfer α => Step capacity s t) ∧
    ∀ ch, Channel.create capacity listing = .ok ch →
      ∃ s, Reachable capacity (initial listing calls) s ∧ Complete capacity s ∧
        s.abandoned = false ∧ s.returned = (ch.takeNext calls).1 ∧
        s.drained = (ch.takeNext calls).2.drain := by
  refine ⟨fun s hs => hs.invariant.streams, wellFounded_step capacity, ?_⟩
  intro ch hcreate
  obtain rfl := Channel.eq_of_create hcreate
  have hstart : Reachable capacity (initial listing calls)
      (running ⟨Channel.effectiveCapacity capacity, listing, []⟩ [] [] calls) := .start
  have hend := hstart.take_drain rfl
  exact ⟨_, hend, hend.invariant.complete rfl, rfl, rfl, rfl⟩

end Transfer

end LineShell
