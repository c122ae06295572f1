import Trpi.Library.Machine

/-!
# Event streams

The `EventStream` of ai/src/utils/event-stream.ts with any number of consumers. What is pushed goes
to the consumer that has waited longest, or waits in a queue itself. A consumer asks for one event
after another; what its promise is resolved with reaches it in a step of its own.
-/

namespace Trpi.Ai

open Library (Machine)
open List

variable {α R : Type}

/-- Two stacks, each with its top as its head. -/
structure FifoQueue (α : Type) where
  incoming : List α
  outgoing : List α

namespace FifoQueue

def new : FifoQueue α := ⟨[], []⟩

def length (q : FifoQueue α) : Nat := q.incoming.length + q.outgoing.length

def enqueue (q : FifoQueue α) (value : α) : FifoQueue α :=
  { q with incoming := value :: q.incoming }

/-- The loop of `dequeue`. -/
def pour : List α → List α → List α
  | [], outgoing => outgoing
  | value :: incoming, outgoing => pour incoming (value :: outgoing)

def dequeue (q : FifoQueue α) : Option α × FifoQueue α :=
  let q := if q.outgoing.isEmpty then ⟨[], pour q.incoming []⟩ else q
  match q.outgoing with
  | [] => (none, q)
  | value :: outgoing => (some value, { q with outgoing })

/-- What is queued, the next first. -/
def toList (q : FifoQueue α) : List α := q.outgoing ++ q.incoming.reverse

variable (q : FifoQueue α)

@[simp] theorem toList_new : (new : FifoQueue α).toList = [] := rfl

@[simp] theorem toList_enqueue (v : α) : (q.enqueue v).toList = q.toList ++ [v] := by
  simp [toList, enqueue]

@[simp] theorem length_toList : q.toList.length = q.length := by
  simp [toList, length, Nat.add_comm]

theorem pour_eq (incoming outgoing : List α) :
    pour incoming outgoing = incoming.reverse ++ outgoing := by
  induction incoming generalizing outgoing with
  | nil => rfl
  | cons v incoming ih => simp [pour, ih]

/-- The two stacks are one queue. -/
theorem dequeue_spec : q.dequeue.1 = q.toList.head? ∧ q.dequeue.2.toList = q.toList.tail := by
  obtain ⟨incoming, outgoing⟩ := q
  cases outgoing with
  | cons v outgoing => simp [dequeue, toList]
  | nil =>
    cases poured : incoming.reverse with
    | nil => simp [dequeue, toList, pour_eq, poured]
    | cons v rest => simp [dequeue, toList, pour_eq, poured]

end FifoQueue

inductive IteratorResult (α : Type) where
  | value (event : α)
  | done

/-- Where the iteration of a consumer is: between two events, at a promise that is not resolved or
that is, or at its end. -/
inductive Consumer (α : Type) where
  | ready
  | waiting
  | resolved (result : IteratorResult α)
  | finished

inductive StreamAct (α R : Type) where
  | push (event : α)
  | endStream (result : Option R)
  | next (consumer : Nat)
  | resume (consumer : Nat)

/-- Waiting consumers stand for their resolvers. What was called, which consumer was given which
event and what has reached each of them is only noted. -/
structure EventStream (α R : Type) where
  isComplete : α → Bool
  extractResult : α → R
  queue : FifoQueue α
  waiting : FifoQueue Nat
  done : Bool
  finalResult : Option R
  consumers : Nat → Consumer α
  calls : List (Option α)
  handed : List (Nat × α)
  received : Nat → List α

namespace EventStream

def new (isComplete : α → Bool) (extractResult : α → R) : EventStream α R where
  isComplete
  extractResult
  queue := .new
  waiting := .new
  done := false
  finalResult := none
  consumers _ := .ready
  calls := []
  handed := []
  received _ := []

def withConsumer (s : EventStream α R) (id : Nat) (consumer : Consumer α) : EventStream α R :=
  { s with consumers := fun other => if other = id then consumer else s.consumers other }

/-- A promise keeps what it was resolved with first. -/
def resolveFinalResult (s : EventStream α R) (result : R) : EventStream α R :=
  { s with finalResult := some (s.finalResult.getD result) }

def hand (s : EventStream α R) (id : Nat) (event : α) : EventStream α R :=
  { s with handed := s.handed ++ [(id, event)] }

def push (s : EventStream α R) (event : α) : EventStream α R :=
  if s.done then s
  else
    let s :=
      if s.isComplete event then
        { s with done := true }.resolveFinalResult (s.extractResult event)
      else s
    match s.waiting.dequeue with
    | (some waiter, waiting) =>
      ({ s with waiting }.hand waiter event).withConsumer waiter (.resolved (.value event))
    | (none, waiting) => { s with waiting, queue := s.queue.enqueue event }

/-- The loop of `end`, which runs while consumers wait. -/
def notifyAll : Nat → EventStream α R → EventStream α R
  | 0, s => s
  | count + 1, s =>
    match s.waiting.dequeue with
    | (some waiter, waiting) =>
      notifyAll count ({ s with waiting }.withConsumer waiter (.resolved .done))
    | (none, waiting) => { s with waiting }

/-- `end`. -/
def endStream (s : EventStream α R) (result : Option R) : EventStream α R :=
  let s := { s with done := true }
  let s := match result with
    | some result => s.resolveFinalResult result
    | none => s
  s.notifyAll s.waiting.length

def receive (s : EventStream α R) (id : Nat) (event : α) : EventStream α R :=
  { s with received := fun other => if other = id then s.received id ++ [event] else s.received other }

/-- One round of the loop, up to what it yields or waits for. -/
def iterate (s : EventStream α R) (id : Nat) : EventStream α R :=
  if 0 < s.queue.length then
    match s.queue.dequeue with
    | (some event, queue) => ({ s with queue }.hand id event).receive id event
    | (none, queue) => { s with queue }
  else if s.done then s.withConsumer id .finished
  else { s with waiting := s.waiting.enqueue id }.withConsumer id .waiting

def next (s : EventStream α R) (id : Nat) : Option (EventStream α R) :=
  match s.consumers id with
  | .ready => some (s.iterate id)
  | _ => none

def resume (s : EventStream α R) (id : Nat) : Option (EventStream α R) :=
  match s.consumers id with
  | .resolved (.value event) => some ((s.receive id event).withConsumer id .ready)
  | .resolved .done => some (s.withConsumer id .finished)
  | _ => none

def call (s : EventStream α R) (called : Option α) : EventStream α R :=
  { s with calls := s.calls ++ [called] }

def step (s : EventStream α R) : StreamAct α R → Option (EventStream α R)
  | .push event => some ((s.push event).call (some event))
  | .endStream result => some ((s.endStream result).call none)
  | .next id => s.next id
  | .resume id => s.resume id

end EventStream

def eventStreamMachine (isComplete : α → Bool) (extractResult : α → R) :
    Machine (EventStream α R) (StreamAct α R) where
  start s := s = .new isComplete extractResult
  step := EventStream.step

/-- What is pushed up to the first event that completes the stream or the first `end`. -/
def accepted (isComplete : α → Bool) : List (Option α) → List α
  | [] => []
  | none :: _ => []
  | some event :: calls =>
    if isComplete event then [event] else event :: accepted isComplete calls

def completed (isComplete : α → Bool) (calls : List (Option α)) : Bool :=
  calls.any fun called => called.all isComplete

variable {isComplete : α → Bool}

theorem accepted_append (calls : List (Option α)) (called : Option α) :
    accepted isComplete (calls ++ [called]) =
      accepted isComplete calls ++ if completed isComplete calls then [] else called.toList := by
  induction calls with
  | nil =>
    cases called with
    | none => rfl
    | some e => simp [accepted, completed]
  | cons first calls ih =>
    cases first with
    | none => simp [accepted, completed]
    | some e =>
      by_cases complete : isComplete e = true
      · simp [accepted, completed, complete]
      · simp [accepted, completed, complete, ih]

@[simp] theorem completed_append (calls : List (Option α)) (called : Option α) :
    completed isComplete (calls ++ [called]) =
      (completed isComplete calls || called.all isComplete) := by
  simp [completed]

/-- What has been given to a consumer and has not reached it. -/
def Consumer.arriving : Consumer α → List α
  | .resolved (.value event) => [event]
  | _ => []

namespace EventStream

variable {s : EventStream α R} {id : Nat} {e : α}

def given (s : EventStream α R) (id : Nat) : List α :=
  (s.handed.filter (·.1 = id)).map Prod.snd

/-- The consumer goes on as far as it can. -/
def goOn (s : EventStream α R) (id : Nat) : EventStream α R :=
  let s := (s.resume id).getD s
  (s.next id).getD s

/-- Every event that was accepted is handed to one consumer, in order, or still queued; a consumer
receives what is handed to it; and when all is handed out after completion, each one finishes. -/
structure Delivers (s : EventStream α R) : Prop where
  order : s.handed.map Prod.snd ++ s.queue.toList = accepted s.isComplete s.calls
  received : ∀ id, s.received id ++ (s.consumers id).arriving = s.given id
  finishes : completed s.isComplete s.calls = true → s.queue.toList = [] →
    ∀ id, (s.goOn id).consumers id = .finished

/-- An event that completes the stream finds at most one consumer waiting. -/
def rouses (s : EventStream α R) : StreamAct α R → Bool
  | .push event => s.done || !s.isComplete event || s.waiting.length ≤ 1
  | _ => true

structure Sound (s : EventStream α R) : Prop where
  done : s.done = completed s.isComplete s.calls
  order : s.handed.map Prod.snd ++ s.queue.toList = accepted s.isComplete s.calls
  received : ∀ id, s.received id ++ (s.consumers id).arriving = s.given id
  waits : ∀ id, id ∈ s.waiting.toList ↔ s.consumers id = .waiting
  single : s.waiting.toList.Nodup
  apart : s.waiting.toList ≠ [] → s.queue.toList = []
  left : s.done = true → s.waiting.toList = []

theorem Sound.delivers (sound : s.Sound) : s.Delivers := by
  refine ⟨sound.order, sound.received, fun complete empty id => ?_⟩
  rw [← sound.done] at complete
  have drained : s.queue.length = 0 := by rw [← FifoQueue.length_toList, empty, length_nil]
  cases at_ : s.consumers id with
  | ready => simp [goOn, resume, next, iterate, withConsumer, at_, drained, complete]
  | waiting =>
    have waits := (sound.waits id).mpr at_
    rw [sound.left complete] at waits
    cases waits
  | resolved result =>
    cases result with
    | value e => simp [goOn, resume, receive, next, iterate, withConsumer, at_, drained, complete]
    | done => simp [goOn, resume, next, withConsumer, at_]
  | finished => simp [goOn, resume, next, at_]

theorem given_hand (s : EventStream α R) (id other : Nat) (e : α) :
    (s.hand id e).given other = s.given other ++ if id = other then [e] else [] := by
  by_cases same : id = other
  · simp [given, hand, same]
  · simp [given, hand, same]

theorem Sound.push (sound : s.Sound) (rouses : s.rouses (.push e : StreamAct α R) = true) :
    ((s.push e).call (some e)).Sound := by
  unfold EventStream.push
  by_cases done : s.done = true
  · have complete := sound.done.symm.trans done
    rw [if_pos done]
    refine ⟨?_, ?_, sound.received, sound.waits, sound.single, sound.apart, sound.left⟩
    · simp [call, done, complete]
    · simp [call, accepted_append, complete, sound.order]
  rw [if_neg done]
  have going : completed s.isComplete s.calls = false := by
    rw [← sound.done]
    exact Bool.eq_false_iff.mpr done
  obtain ⟨result, same⟩ : ∃ result,
      (if s.isComplete e = true then { s with done := true }.resolveFinalResult (s.extractResult e)
        else s) = { s with done := s.isComplete e, finalResult := result } := by
    by_cases complete : s.isComplete e = true
    · exact ⟨_, by rw [if_pos complete, complete]; rfl⟩
    · refine ⟨s.finalResult, ?_⟩
      rw [if_neg complete, Bool.eq_false_iff.mpr complete, ← Bool.eq_false_iff.mpr done]
  rw [same]
  obtain ⟨head, tail⟩ := s.waiting.dequeue_spec
  dsimp only
  split
  · rename_i waiter waiting taken
    rw [taken] at head tail
    obtain ⟨rest, waits⟩ : ∃ rest, s.waiting.toList = waiter :: rest :=
      ⟨_, (List.cons_head?_tail head.symm).symm⟩
    have single := sound.single
    have empty := sound.apart (by rw [waits]; exact cons_ne_nil _ _)
    have order := sound.order
    rw [waits] at single
    rw [waits, tail_cons] at tail
    rw [empty, append_nil] at order
    refine ⟨?_, ?_, fun id => ?_, fun id => ?_, ?_, fun _ => empty, fun complete => ?_⟩
    · simp [call, withConsumer, hand, going]
    · simp [call, withConsumer, hand, accepted_append, going, empty, order]
    · have received := sound.received id
      by_cases own : id = waiter
      · subst own
        have waited := (sound.waits id).mp (by rw [waits]; exact mem_cons_self)
        rw [waited] at received
        simpa [call, withConsumer, hand, EventStream.given, Consumer.arriving] using received
      · have given := given_hand s waiter id e
        rw [if_neg (Ne.symm own), append_nil] at given
        simp only [call, withConsumer, if_neg own]
        exact received.trans given.symm
    · have known := sound.waits id
      rw [waits, mem_cons] at known
      by_cases own : id = waiter
      · subst own
        simp [call, withConsumer, hand, tail, (nodup_cons.mp single).1]
      · simpa [call, withConsumer, hand, tail, own] using known
    · simpa [call, withConsumer, hand, tail] using (nodup_cons.mp single).2
    · have few : s.waiting.toList.length ≤ 1 := by
        simpa [EventStream.rouses, Bool.eq_false_iff.mpr done,
          (show s.isComplete e = true from complete)] using rouses
      rw [waits, length_cons] at few
      exact tail.trans (length_eq_zero_iff.mp (by omega))
  · rename_i waiting taken
    rw [taken] at head tail
    have none_ : s.waiting.toList = [] := head?_eq_none_iff.mp head.symm
    rw [none_] at tail
    refine ⟨?_, ?_, sound.received, fun id => ?_, ?_, fun some => absurd tail some, fun _ => tail⟩
    · simp [call, going]
    · simp [call, accepted_append, going, ← sound.order]
    · have known := sound.waits id
      rw [none_] at known
      simpa [call, tail] using known
    · simp [call, tail]

/-- Everyone who waits is told that the stream is done, and nothing else changes. -/
theorem notifyAll_spec (count : Nat) (s : EventStream α R) (all : s.waiting.length = count)
    (single : s.waiting.toList.Nodup) :
    ∃ waiting, waiting.toList = [] ∧ s.notifyAll count =
      { s with
        waiting
        consumers := fun id =>
          if id ∈ s.waiting.toList then .resolved .done else s.consumers id } := by
  induction count generalizing s with
  | zero =>
    have none_ : s.waiting.toList = [] := length_eq_zero_iff.mp (by simp [all])
    exact ⟨s.waiting, none_, by simp [notifyAll, none_]⟩
  | succ count ih =>
    obtain ⟨head, tail⟩ := s.waiting.dequeue_spec
    rw [← FifoQueue.length_toList] at all
    obtain ⟨waiter, rest, waits⟩ := exists_cons_of_length_eq_add_one all
    rw [waits, head?_cons] at head
    rw [waits, tail_cons] at tail
    rw [waits] at single all
    have once := nodup_cons.mp single
    obtain ⟨waiting, none_, told⟩ := ih
      ({ s with waiting := s.waiting.dequeue.2 }.withConsumer waiter (.resolved .done))
      (by rw [← FifoQueue.length_toList]; simpa [withConsumer, tail] using all)
      (by simpa [withConsumer, tail] using once.2)
    refine ⟨waiting, none_, ?_⟩
    rw [notifyAll, show s.waiting.dequeue = (some waiter, s.waiting.dequeue.2) from
      Prod.ext head rfl]
    dsimp only
    rw [told]
    simp only [withConsumer, tail, waits, mem_cons]
    congr 1
    funext id
    by_cases own : id = waiter
    · simp [own, once.1]
    · simp [own]

theorem Sound.endStream (sound : s.Sound) (result : Option R) :
    ((s.endStream result).call none).Sound := by
  obtain ⟨final, same⟩ : ∃ final,
      (match result with
        | some result => { s with done := true }.resolveFinalResult result
        | none => { s with done := true }) = { s with done := true, finalResult := final } := by
    cases result with
    | none => exact ⟨_, rfl⟩
    | some result => exact ⟨_, rfl⟩
  unfold EventStream.endStream
  dsimp only
  rw [same]
  obtain ⟨waiting, none_, told⟩ := notifyAll_spec s.waiting.length
    { s with done := true, finalResult := final } rfl sound.single
  rw [told]
  refine ⟨?_, ?_, fun id => ?_, fun id => ?_, ?_, fun some => absurd none_ some, fun _ => none_⟩
  · simp [call]
  · simp [call, accepted_append, sound.order]
  · have received := sound.received id
    by_cases waits : id ∈ s.waiting.toList
    · rw [(sound.waits id).mp waits] at received
      simpa [call, EventStream.given, waits, Consumer.arriving] using received
    · simpa [call, EventStream.given, waits] using received
  · have known := sound.waits id
    by_cases waits : id ∈ s.waiting.toList
    · simp [call, none_, waits]
    · simpa [call, none_, waits] using known
  · simp [call, none_]

theorem Sound.iterate (sound : s.Sound) (ready : s.consumers id = .ready) :
    (s.iterate id).Sound := by
  have idle : id ∉ s.waiting.toList := by
    rw [sound.waits, ready]
    exact fun absurd => by cases absurd
  have own := sound.received id
  rw [ready] at own
  unfold EventStream.iterate
  split_ifs with queued done
  · obtain ⟨head, tail⟩ := s.queue.dequeue_spec
    rw [← FifoQueue.length_toList] at queued
    obtain ⟨e, rest, holds⟩ := exists_cons_of_length_pos queued
    rw [holds, head?_cons] at head
    rw [holds, tail_cons] at tail
    rw [show s.queue.dequeue = (some e, s.queue.dequeue.2) from Prod.ext head rfl]
    dsimp only
    have order := sound.order
    rw [holds] at order
    have nobody : s.waiting.toList = [] := by
      by_contra some
      rw [sound.apart some] at holds
      cases holds
    refine ⟨sound.done, ?_, fun other => ?_, sound.waits, sound.single,
      fun some => absurd nobody some, sound.left⟩
    · simpa [receive, hand, tail] using order
    · have given := given_hand s id other e
      by_cases same : id = other
      · subst same
        rw [if_pos rfl, ← own] at given
        simpa [receive, hand, EventStream.given, ready, Consumer.arriving] using given.symm
      · rw [if_neg same, append_nil] at given
        have received := sound.received other
        rw [← given] at received
        simpa [receive, hand, EventStream.given, Ne.symm same] using received
  · refine ⟨sound.done, sound.order, fun other => ?_, fun other => ?_, sound.single, sound.apart,
      sound.left⟩
    · have received := sound.received other
      by_cases same : other = id
      · subst same
        simpa [withConsumer, EventStream.given, Consumer.arriving] using own
      · simpa [withConsumer, EventStream.given, same] using received
    · have known := sound.waits other
      by_cases same : other = id
      · subst same
        simp [withConsumer, idle]
      · simpa [withConsumer, same] using known
  · have empty : s.queue.toList = [] := length_eq_zero_iff.mp (by simp; omega)
    refine ⟨sound.done, sound.order, fun other => ?_, fun other => ?_, ?_, fun _ => empty,
      fun complete => absurd complete done⟩
    · have received := sound.received other
      by_cases same : other = id
      · subst same
        simpa [withConsumer, EventStream.given, Consumer.arriving] using own
      · simpa [withConsumer, EventStream.given, same] using received
    · have known := sound.waits other
      by_cases same : other = id
      · subst same
        simp [withConsumer]
      · simpa [withConsumer, same] using known
    · have other : ∀ w ∈ s.waiting.toList, w ≠ id := by
        intro w mem same
        exact idle (by rw [← same]; exact mem)
      simpa [withConsumer, nodup_append, sound.single] using other

theorem Sound.resume {next : EventStream α R} (sound : s.Sound) (taken : s.resume id = some next) :
    next.Sound := by
  unfold EventStream.resume at taken
  have own := sound.received id
  have known := sound.waits id
  split at taken
  · rename_i e at_
    cases taken
    rw [at_] at own known
    refine ⟨sound.done, sound.order, fun other => ?_, fun other => ?_, sound.single, sound.apart,
      sound.left⟩
    · by_cases same : other = id
      · subst same
        simpa [withConsumer, receive, EventStream.given, Consumer.arriving] using own
      · simpa [withConsumer, receive, EventStream.given, same] using sound.received other
    · by_cases same : other = id
      · subst same
        simpa [withConsumer, receive] using known
      · simpa [withConsumer, receive, same] using sound.waits other
  · rename_i at_
    cases taken
    rw [at_] at own known
    refine ⟨sound.done, sound.order, fun other => ?_, fun other => ?_, sound.single, sound.apart,
      sound.left⟩
    · by_cases same : other = id
      · subst same
        simpa [withConsumer, EventStream.given, Consumer.arriving] using own
      · simpa [withConsumer, EventStream.given, same] using sound.received other
    · by_cases same : other = id
      · subst same
        simpa [withConsumer] using known
      · simpa [withConsumer, same] using sound.waits other
  · cases taken

theorem sound_inductive (isComplete : α → Bool) (extractResult : α → R) :
    (eventStreamMachine isComplete extractResult).Inductive (·.rouses · = true) Sound where
  start s initial := by
    rw [show s = new isComplete extractResult from initial]
    exact ⟨rfl, rfl, fun _ => rfl, fun _ => by simp [new], nodup_nil, fun _ => rfl, fun _ => rfl⟩
  step s act next sound rouses taken := by
    cases act with
    | push e =>
      cases taken
      exact sound.push rouses
    | endStream result =>
      cases taken
      exact sound.endStream result
    | next id =>
      change s.next id = some next at taken
      unfold EventStream.next at taken
      split at taken
      · rename_i ready
        cases taken
        exact sound.iterate ready
      · cases taken
    | resume id => exact sound.resume taken

/-- Where no event that completes the stream finds two consumers waiting. -/
theorem delivers_of_roused {isComplete : α → Bool} {extractResult : α → R}
    (reached : (eventStreamMachine isComplete extractResult).Reached (·.rouses · = true) s) :
    s.Delivers :=
  ((sound_inductive isComplete extractResult).reached reached).delivers

theorem delivers_of_roused_sample :
    ∃ s : EventStream Nat Nat,
      (eventStreamMachine (· == 9) fun e => e).Reached (·.rouses · = true) s ∧
      s.received 0 = [1] ∧ s.received 1 = [9] ∧ s.Delivers := by
  have started : (eventStreamMachine (· == 9) fun e => e).Reached
      (fun (s : EventStream Nat Nat) act => s.rouses act = true) (new (· == 9) fun e => e) := .start rfl
  have ran : Machine.exec (eventStreamMachine (· == 9) fun e => e)
      (fun (s : EventStream Nat Nat) act => s.rouses act = true) (new (· == 9) fun e => e)
      [.next 0, .next 1, .push 1, .resume 0, .push 9, .resume 1, .push 2, .next 0, .next 1] =
        some _ := rfl
  exact ⟨_, started.exec ran, rfl, rfl, delivers_of_roused (started.exec ran)⟩

/-- Two consumers wait for the event that completes the stream: one is given it, the other waits
on. -/
theorem waiter_left :
    ∃ s : EventStream Nat Nat, (eventStreamMachine (· == 9) fun e => e).Reached (fun _ _ => True) s ∧
      s.done = true ∧ s.queue.toList = [] ∧ ¬ s.Delivers := by
  have started : (eventStreamMachine (· == 9) fun e => e).Reached
      (fun (_ : EventStream Nat Nat) _ => True) (new (· == 9) fun e => e) := .start rfl
  have ran : Machine.exec (eventStreamMachine (· == 9) fun e => e)
      (fun (_ : EventStream Nat Nat) _ => True) (new (· == 9) fun e => e)
      [.next 0, .next 1, .push 9, .resume 0, .next 0] = some _ := rfl
  refine ⟨_, started.exec ran, rfl, rfl, fun delivers => ?_⟩
  cases delivers.finishes rfl rfl 1

end EventStream

end Trpi.Ai
