import Mathlib.Data.List.Basic
import Mathlib.Data.Rat.Defs
import Mathlib.Algebra.Order.Ring.Rat

/-!
# The adaptive publisher

The latest value is published, none of those between. After a publication the next waits as
long as its size takes, with one timer for what has changed since. The clock may return
anything. What a call publishes is returned; delivering it is up to the caller, who has
committed the baseline by then.
-/

namespace Trpi.Harness

variable {V U : Type}

structure AdaptivePublisherOptions (V U : Type) where
  update : Option V → V → Option U
  measure : U → Nat
  minIntervalMs : Nat
  targetBytesPerSecond : Nat

/-- The two readings of the clock by `markDirty`: its own and that of the flush it calls. -/
structure ClockReadings where
  marked : Int
  flushed : Int

structure AdaptivePublisher (V : Type) where
  published : Option V
  dirty : Bool
  nextEmitAt : Rat
  timer : Bool
  disposed : Bool

namespace AdaptivePublisher

def new : AdaptivePublisher V where
  published := none
  dirty := false
  nextEmitAt := 0
  timer := false
  disposed := false

def armTimer (publisher : AdaptivePublisher V) : AdaptivePublisher V :=
  if publisher.timer then publisher else { publisher with timer := true }

/-- `flush`, with the value its snapshot is, and what is to be delivered. -/
def flush (opts : AdaptivePublisherOptions V U) (publisher : AdaptivePublisher V) (now : Int)
    (force : Bool) (current : V) : AdaptivePublisher V × Option U :=
  if publisher.disposed || !publisher.dirty then (publisher, none)
  else if force = false ∧ now < publisher.nextEmitAt then (publisher.armTimer, none)
  else
    match opts.update publisher.published current with
    | none =>
      ({ publisher with timer := false, published := some current, dirty := false }, none)
    | some update =>
      ({ publisher with
          timer := false
          published := some current
          dirty := false
          nextEmitAt := now + max (opts.minIntervalMs : Rat)
            (opts.measure update * 1000 / opts.targetBytesPerSecond) }, some update)

def markDirty (opts : AdaptivePublisherOptions V U) (publisher : AdaptivePublisher V)
    (clock : ClockReadings) (current : V) : AdaptivePublisher V × Option U :=
  if publisher.disposed then (publisher, none)
  else if publisher.nextEmitAt - clock.marked ≤ 0 then
    flush opts { publisher with dirty := true } clock.flushed false current
  else ({ publisher with dirty := true }.armTimer, none)

/-- The timer goes off. -/
def fire (opts : AdaptivePublisherOptions V U) (publisher : AdaptivePublisher V) (now : Int)
    (current : V) : Option (AdaptivePublisher V × Option U) :=
  if publisher.timer then some (flush opts { publisher with timer := false } now false current)
  else none

def dispose (publisher : AdaptivePublisher V) : AdaptivePublisher V :=
  { publisher with timer := false, disposed := true }

end AdaptivePublisher

/-- A publisher, what a reader has put together from its updates, the value now and the value
it began with: the reader has what was published, and without a timer that is the value now. -/
structure AdaptivePublisher.Serves (publisher : AdaptivePublisher V) (view : Option V)
    (current fresh : V) : Prop where
  follows : view = publisher.published
  clean : publisher.disposed = false → publisher.timer = false → publisher.dirty = false
  latest : publisher.disposed = false → publisher.dirty = false →
    publisher.published = some current ∨ publisher.published = none ∧ current = fresh

namespace AdaptivePublisher

variable {opts : AdaptivePublisherOptions V U} {apply : Option V → U → V}
  {publisher : AdaptivePublisher V} {view : Option V} {current fresh : V}

/-- The view after a call. -/
def received (apply : Option V → U → V) (view : Option V) : Option U → Option V
  | none => view
  | some update => some (apply view update)

/-- Something is published that leads to the value now, or the publisher is as it was but for
its timer. -/
theorem flush_cases (opts : AdaptivePublisherOptions V U) (publisher : AdaptivePublisher V)
    (now : Int) (force : Bool) (current : V) :
    ((publisher.disposed = true ∨ publisher.dirty = false) ∧
        flush opts publisher now force current = (publisher, none)) ∨
      (publisher.dirty = true ∧
        flush opts publisher now force current = (publisher.armTimer, none)) ∨
      ((flush opts publisher now force current).1.published = some current ∧
        (flush opts publisher now force current).1.dirty = false ∧
        (flush opts publisher now force current).1.disposed = publisher.disposed ∧
        (flush opts publisher now force current).2 = opts.update publisher.published current) := by
  rw [flush]
  split
  · rename_i idle
    left
    refine ⟨?_, rfl⟩
    simpa using idle
  rename_i busy
  have dirty : publisher.dirty = true := by
    cases s : publisher.dirty with
    | true => rfl
    | false => simp [s] at busy
  split
  · exact .inr (.inl ⟨dirty, rfl⟩)
  · right
    right
    split
    · rename_i none_
      exact ⟨rfl, rfl, rfl, none_.symm⟩
    · rename_i update found
      exact ⟨rfl, rfl, rfl, found.symm⟩

theorem armTimer_timer (publisher : AdaptivePublisher V) : publisher.armTimer.timer = true := by
  rw [armTimer]
  split
  · assumption
  · rfl

theorem armTimer_frame (publisher : AdaptivePublisher V) :
    publisher.armTimer.published = publisher.published ∧
      publisher.armTimer.dirty = publisher.dirty ∧
      publisher.armTimer.disposed = publisher.disposed := by
  rw [armTimer]
  split
  · exact ⟨rfl, rfl, rfl⟩
  · exact ⟨rfl, rfl, rfl⟩

theorem serves_armTimer (follows : view = publisher.published) (dirty : publisher.dirty = true) :
    publisher.armTimer.Serves view current fresh := by
  obtain ⟨published, still, -⟩ := armTimer_frame publisher
  constructor
  · rw [published]
    exact follows
  · intro _ unarmed
    rw [armTimer_timer] at unarmed
    cases unarmed
  · intro _ clean
    rw [still, dirty] at clean
    cases clean

/-- What a call returns: the reader goes on having what was published, and what is delivered
leads to the value it was made from. -/
structure Delivers (apply : Option V → U → V) (publisher : AdaptivePublisher V) (view : Option V)
    (current fresh : V) (result : AdaptivePublisher V × Option U) : Prop where
  serves : result.1.Serves (received apply view result.2) current fresh
  exact : ∀ update, result.2 = some update → apply view update = current
  disposed : result.1.disposed = publisher.disposed

theorem delivers_armTimer (follows : view = publisher.published) (dirty : publisher.dirty = true) :
    publisher.Delivers apply view current fresh (publisher.armTimer, none) := by
  constructor
  · exact serves_armTimer follows dirty
  · intro update sent
    cases sent
  · exact (armTimer_frame publisher).2.2

section

variable (exact_ : ∀ previous current, ∃ update, opts.update previous current = some update ∧
  apply previous update = current)

include exact_

theorem delivers_flush (now : Int) (force : Bool) (follows : view = publisher.published)
    (latest : publisher.disposed = false → publisher.dirty = false →
      publisher.published = some current ∨ publisher.published = none ∧ current = fresh) :
    publisher.Delivers apply view current fresh (flush opts publisher now force current) := by
  rcases flush_cases opts publisher now force current with
    ⟨idle, same⟩ | ⟨dirty, armed⟩ | ⟨published, clean, disposed, sent⟩
  · rw [same]
    constructor
    · constructor
      · exact follows
      · intro open_ _
        rcases idle with disposed | clean
        · rw [open_] at disposed
          cases disposed
        · exact clean
      · intro open_ clean
        exact latest open_ clean
    · intro update sent
      cases sent
    · rfl
  · rw [armed]
    exact delivers_armTimer follows dirty
  · obtain ⟨update, made, leads⟩ := exact_ publisher.published current
    constructor
    · constructor
      · rw [published, sent, made, received, follows, leads]
      · intro _ _
        exact clean
      · intro _ _
        exact Or.inl published
    · intro other delivered
      rw [sent, made] at delivered
      rw [← Option.some.inj delivered, follows]
      exact leads
    · exact disposed

theorem delivers_markDirty (clock : ClockReadings) (follows : view = publisher.published) :
    publisher.Delivers apply view current fresh (markDirty opts publisher clock current) := by
  rw [markDirty]
  split
  · rename_i disposed
    constructor
    · constructor
      · exact follows
      · intro open_
        rw [disposed] at open_
        cases open_
      · intro open_
        rw [disposed] at open_
        cases open_
    · intro update sent
      cases sent
    · rfl
  -- what changes from here on is that it is dirty
  have delivered : ∀ result : AdaptivePublisher V × Option U,
      Delivers apply { publisher with dirty := true } view current fresh result →
      publisher.Delivers apply view current fresh result := by
    intro result delivers
    exact ⟨delivers.serves, delivers.exact, delivers.disposed⟩
  apply delivered
  split
  · apply delivers_flush exact_
    · exact follows
    · intro _ clean
      cases clean
  · exact delivers_armTimer follows rfl

end

end AdaptivePublisher

end Trpi.Harness
