import CacheSim.Stats.Format
import CacheSim.Simulation.Cycle

/-!
# Runs of a system

A run performs cycles until all accesses are completed, or gives up after a
number of them.
-/

namespace CacheSim

/-- What a completed run tells. -/
structure Summary where
  /-- The cycles performed. -/
  cycles : Nat
  /-- The time at the end. -/
  ticks : Tick
  cache : CacheStats
  /-- The completed accesses of every requestor. -/
  completions : List (List Completion)
  deriving DecidableEq

/-- The document of a summary. -/
def Summary.toDocument (s : Summary) : Document :=
  .record [
    ("cycles", .nat s.cycles),
    ("ticks", .nat s.ticks),
    ("cache", s.cache.toDocument),
    ("completions", .list (s.completions.map fun cs => .list (cs.map Completion.toDocument)))]

/-- What the cache is doing when a run gives up. -/
structure Stall where
  /-- The cycles after which the run gave up. -/
  limit : Nat
  phase : Phase
  waitingPort : Option Nat
  deriving DecidableEq

/-- The wording of a stall. -/
def Stall.message (s : Stall) : String :=
  s!"not done after {s.limit} cycles (cache {s.phase.name}, "
    ++ s!"waiting port {optionalText toString s.waitingPort})"

namespace Simulation

/-- The cycles after which a run gives up if no other limit is set. -/
def defaultLimit : Nat := 1000000

/-- What can be told now. -/
def summary (s : Simulation) : Summary where
  cycles := s.nextCycle
  ticks := s.queue.now
  cache := s.cache.stats
  completions := s.requestors.map (·.completions)

/-- Performs cycles until all is done or `limit` cycles were performed. -/
def advance (s : Simulation) (limit : Nat) : Sim Simulation :=
  Sim.iterate (!·.isDone) step (limit - s.nextCycle) s

/-- Runs until all accesses are completed. -/
def run (s : Simulation) (limit : Nat) : Sim (Except Stall Summary × Simulation) := do
  let s ← s.advance limit
  if s.isDone then
    Sim.info fun _ => return s!"done after {s.nextCycle} cycles"
    return (.ok s.summary, s)
  else
    return (.error { limit, phase := s.cache.phase, waitingPort := s.cache.waitingPort }, s)

end Simulation

end CacheSim
