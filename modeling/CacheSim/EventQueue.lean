import CacheSim.Clock

/-!
# The event queue

Pending events in the order in which they fire: by time, and events of one
time in the order in which they were scheduled.  The current time never moves
past a pending event.
-/

namespace CacheSim

/-- Events to come and the current time. -/
structure EventQueue (ε : Type) where
  clock : Clock
  now : Tick := 0
  /-- The events to come with their times, the next one first. -/
  pending : List (Tick × ε) := []
  deriving DecidableEq

namespace EventQueue

variable {ε : Type}

/-- A queue without events at time zero. -/
def empty (clock : Clock) : EventQueue ε :=
  { clock }

/-- The number of events to come. -/
def size (q : EventQueue ε) : Nat :=
  q.pending.length

/-- No event is to come. -/
def isEmpty (q : EventQueue ε) : Bool :=
  q.pending.isEmpty

/-- The time of the next event. -/
def next? (q : EventQueue ε) : Option Tick :=
  q.pending.head?.map (·.1)

/-- Places an event behind all events that are not later. -/
def place (tick : Tick) (event : ε) : List (Tick × ε) → List (Tick × ε)
  | [] => [(tick, event)]
  | e :: rest => if e.1 ≤ tick then e :: place tick event rest else (tick, event) :: e :: rest

/-- Adds an event at a time that is not in the past. -/
def schedule (q : EventQueue ε) (event : ε) (tick : Tick) : Except Fault (EventQueue ε) :=
  if q.now ≤ tick then .ok { q with pending := place tick event q.pending }
  else .error (.eventInPast tick q.now)

/-- The clock edge some cycles from now. -/
def edge (q : EventQueue ε) (cycles : Nat) : Except Fault Tick :=
  q.clock.edge q.now cycles

/-- Moves time forward, at most to the next event, which is not fired. -/
def advanceTo (q : EventQueue ε) (tick : Tick) : Except Fault (EventQueue ε) := do
  unless q.now ≤ tick do throw (.timeBackwards q.now tick)
  if let some next := q.next? then
    unless tick ≤ next do throw (.pastPendingEvent tick next)
  return { q with now := tick }

/-- Takes the next event and moves time to it. -/
def pop? (q : EventQueue ε) : Option (Tick × ε × EventQueue ε) :=
  match q.pending with
  | [] => none
  | (tick, event) :: rest => some (tick, event, { q with now := tick, pending := rest })

/-- Takes the next event if it is due at `tick`. -/
def popDue? (q : EventQueue ε) (tick : Tick) : Option (Tick × ε × EventQueue ε) :=
  match q.next? with
  | some next => if next ≤ tick then q.pop? else none
  | none => none

theorem advanceTo_eq_ok {q : EventQueue ε} {tick : Tick} (hle : q.now ≤ tick)
    (hnext : ∀ next ∈ q.next?, tick ≤ next) : q.advanceTo tick = .ok { q with now := tick } := by
  cases hq : q.next? with
  | none => simp [advanceTo, hle, hq, pure, Except.pure]
  | some next => simp [advanceTo, hle, hq, hnext next hq, pure, Except.pure]

theorem clock_of_pop? {q r : EventQueue ε} {tick : Tick} {event : ε}
    (h : q.pop? = some (tick, event, r)) : r.clock = q.clock := by
  unfold pop? at h
  split at h
  · cases h
  · simp only [Option.some.injEq, Prod.mk.injEq] at h
    obtain ⟨-, -, rfl⟩ := h
    rfl

end EventQueue

end CacheSim
