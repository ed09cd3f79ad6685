/-!
# Phases of a cache

What a blocking cache is waiting for.
-/

namespace CacheSim

/-- What the cache is waiting for. -/
inductive Phase where
  /-- Nothing: it takes requests. -/
  | idle
  /-- The scheduled access of an accepted request. -/
  | waitAccess
  /-- A block from the memory. -/
  | waitMem
  deriving DecidableEq, Inhabited

/-- The name of a phase. -/
def Phase.name : Phase → String
  | idle => "Idle"
  | waitAccess => "WaitAccess"
  | waitMem => "WaitMem"

end CacheSim
