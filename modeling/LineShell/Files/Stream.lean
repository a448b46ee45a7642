/-!
# Streaming a listing

The entries of a directory reach completion through a bounded channel: a producer sends them one
by one and waits while the channel is full, a consumer takes the next entry a few times and then
drains the rest.

* `Channel` — what is not sent yet and what is under way; `Channel.create` makes one, or fails for
  a capacity beyond `Channel.maxCapacity`.
* `Channel.next?`, **`Channel.drain`** — receiving under one schedule: the producer runs as far as
  it can, then the consumer.
* `Transfer` — producer and consumer as a transition system; **`Transfer.Step`** lists what either
  may do next, in any order.
-/

namespace LineShell

/-- A fault that stops the program. -/
inductive Fault where
  /-- A channel was asked for with a capacity that it cannot have. -/
  | channelTooLarge
  /-- A variable of the environment is not text. -/
  | notText
  deriving DecidableEq, Repr

/-- A channel in use: how many entries it may hold, those that are not sent yet, and those that
are sent and not received. -/
structure Channel (α : Type) where
  capacity : Nat
  unsent : List α
  buffer : List α
  deriving DecidableEq, Repr

namespace Channel

variable {α : Type}

def maxCapacity : Nat := Nat.pow 2 61 - 1

/-- The capacity that is used where `capacity` is asked for: zero counts as one. -/
def effectiveCapacity (capacity : Nat) : Nat :=
  max capacity 1

/-- A channel for a listing, nothing sent yet. -/
def create (capacity : Nat) (listing : List α) : Except Fault (Channel α) :=
  if maxCapacity < capacity then .error .channelTooLarge
  else .ok ⟨effectiveCapacity capacity, listing, []⟩

/-- Lets the producer send until the channel is full or nothing is left. -/
def fill (c : Channel α) : Channel α :=
  let room := c.capacity - c.buffer.length
  { c with unsent := c.unsent.drop room, buffer := c.buffer ++ c.unsent.take room }

/-- Receives the next entry; none once all are received. -/
def next? (c : Channel α) : Option (α × Channel α) :=
  match c.fill.buffer with
  | [] => none
  | a :: rest => some (a, { c.fill with buffer := rest })

def pending (c : Channel α) : Nat :=
  c.buffer.length + c.unsent.length

theorem pending_fill (c : Channel α) : c.fill.pending = c.pending := by
  simp [fill, pending]
  omega

theorem pending_next? {c d : Channel α} {a : α} (h : c.next? = some (a, d)) :
    d.pending + 1 = c.pending := by
  have hp := pending_fill c
  unfold next? at h
  split at h
  · cases h
  · next b rest hb =>
    obtain ⟨rfl, rfl⟩ : b = a ∧ { c.fill with buffer := rest } = d := by simpa using h
    simp only [pending, hb, List.length_cons] at hp ⊢
    omega

/-- Receives up to `n` entries, one at a time. -/
def takeNext : Nat → Channel α → List α × Channel α
  | 0, c => ([], c)
  | n + 1, c => match c.next? with
    | none => ([], c)
    | some (a, c) =>
      let r := takeNext n c
      (a :: r.1, r.2)

def drain (c : Channel α) : List α :=
  match _h : c.next? with
  | none => []
  | some (a, d) => a :: d.drain
termination_by c.pending
decreasing_by
  have := pending_next? _h
  omega

end Channel

/-! ## All schedules -/

/-- Where a transfer stands: the entries not sent, those in the channel, those that single calls
returned and those that the drain delivered; how many single calls are still to come; and which
side has come to its end. -/
structure Transfer (α : Type) where
  unsent : List α
  buffer : List α
  returned : List α
  drained : List α
  calls : Nat
  /-- The producer has finished and dropped its end of the channel. -/
  producerDone : Bool
  /-- The drain has ended, after the producer. -/
  consumerDone : Bool
  /-- The consumer went away before the end. -/
  abandoned : Bool
  deriving DecidableEq, Repr

namespace Transfer

variable {α : Type}

/-- The start of a transfer with a number of single calls before the drain. -/
def initial (listing : List α) (calls : Nat) : Transfer α :=
  ⟨listing, [], [], [], calls, false, false, false⟩

/-- What may happen next, the channel holding at most `capacity` entries. -/
inductive Step (capacity : Nat) : Transfer α → Transfer α → Prop where
  /-- The producer sends an entry, the channel having room. -/
  | send (s : Transfer α) (a : α) (rest : List α) : s.unsent = a :: rest → s.producerDone = false →
      s.abandoned = false → s.buffer.length < Channel.effectiveCapacity capacity →
      Step capacity s { s with unsent := rest, buffer := s.buffer ++ [a] }
  /-- The producer has sent everything and finishes. -/
  | finish (s : Transfer α) : s.unsent = [] → s.producerDone = false →
      Step capacity s { s with producerDone := true }
  /-- A send fails because nobody receives any more, and the producer finishes. -/
  | giveUp (s : Transfer α) : s.abandoned = true → s.producerDone = false →
      Step capacity s { s with producerDone := true }
  /-- A single call returns the next entry. -/
  | call (s : Transfer α) (a : α) (rest : List α) (n : Nat) : s.buffer = a :: rest →
      s.calls = n + 1 → s.abandoned = false →
      Step capacity s { s with buffer := rest, returned := s.returned ++ [a], calls := n }
  /-- A single call finds the channel empty for good. -/
  | callNone (s : Transfer α) (n : Nat) : s.buffer = [] → s.producerDone = true →
      s.calls = n + 1 → s.abandoned = false → Step capacity s { s with calls := n }
  /-- The drain takes an entry. -/
  | drain (s : Transfer α) (a : α) (rest : List α) : s.buffer = a :: rest → s.calls = 0 →
      s.consumerDone = false → s.abandoned = false →
      Step capacity s { s with buffer := rest, drained := s.drained ++ [a] }
  /-- The drain finds the channel empty for good and ends. -/
  | stop (s : Transfer α) : s.buffer = [] → s.producerDone = true → s.calls = 0 →
      s.consumerDone = false → s.abandoned = false →
      Step capacity s { s with consumerDone := true }
  /-- The consumer goes away before the drain has ended. -/
  | abandon (s : Transfer α) : s.consumerDone = false → s.abandoned = false →
      Step capacity s { s with buffer := [], abandoned := true }

/-- The states that a transfer can come to. -/
inductive Reachable (capacity : Nat) (start : Transfer α) : Transfer α → Prop where
  | start : Reachable capacity start start
  | step {s t : Transfer α} : Reachable capacity start s → Step capacity s t →
      Reachable capacity start t

end Transfer

end LineShell
