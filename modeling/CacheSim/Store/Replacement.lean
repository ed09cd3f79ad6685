import CacheSim.Geometry
import CacheSim.Random.Generator

/-!
# Choosing a victim

The victim among candidates is drawn at random, or it is the one that was
accessed first; of several such ones, the first in line.
-/

namespace CacheSim

/-- The first place of the least number. -/
def leastIndex? (times : List Nat) : Option Nat :=
  times.min?.map times.idxOf

/-- The place of the victim among candidates of the given last access times, and
the generator afterwards.  Only a random choice draws from it. -/
def Policy.victim? (policy : Policy) (times : List Nat) (g : Generator) :
    Except Fault (Option Nat × Generator) :=
  if times.isEmpty then .ok (none, g)
  else
    match policy with
    | .random => do
      let (i, g) ← g.index times.length
      return (some i, g)
    | .lru => .ok (leastIndex? times, g)

end CacheSim
