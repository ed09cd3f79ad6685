import CacheSim.Clock
import CacheSim.Trace.Format

/-!
# Completions

What is known of an access once its response came.
-/

namespace CacheSim

/-- An access with the times of its request and response. -/
structure Completion where
  access : Access
  /-- When its request was first offered. -/
  issued : Tick
  /-- When its request was accepted. -/
  accepted : Tick
  /-- When its response came. -/
  responded : Tick
  /-- The bytes of the response. -/
  data : Bytes
  deriving DecidableEq, Inhabited

/-- The document of a completion. -/
def Completion.toDocument (c : Completion) : Document :=
  .record [
    ("access", c.access.toDocument),
    ("issued", .nat c.issued),
    ("accepted", .nat c.accepted),
    ("responded", .nat c.responded),
    ("data", .ofBytes c.data)]

end CacheSim
