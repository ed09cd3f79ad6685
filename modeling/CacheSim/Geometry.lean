import CacheSim.Word
import CacheSim.Text.ByteCount

/-!
# Shapes of caches

How the lines of a cache are organised, how a victim is chosen among them, and
the numbers that follow from this.
-/

namespace CacheSim

/-- Where a block may be kept. -/
inductive CacheKind where
  /-- In the one slot of its address. -/
  | directMapped
  /-- In any line. -/
  | fullyAssociative
  /-- In any way of the set of its address. -/
  | setAssociative
  deriving DecidableEq, Inhabited

/-- Which line makes room for a new block. -/
inductive Policy where
  /-- One drawn at random. -/
  | random
  /-- The one whose last access is the longest ago. -/
  | lru
  deriving DecidableEq, Inhabited

namespace CacheKind

/-- The name of a kind. -/
def name : CacheKind → String
  | directMapped => "direct_mapped"
  | fullyAssociative => "fully_associative"
  | setAssociative => "set_associative"

/-- The kind of a name. -/
def ofName? (s : String) : Option CacheKind :=
  [directMapped, fullyAssociative, setAssociative].find? (·.name == s)

end CacheKind

namespace Policy

/-- The name of a policy. -/
def name : Policy → String
  | random => "Random"
  | lru => "LRU"

/-- The policy of a name. -/
def ofName? (s : String) : Option Policy :=
  [random, lru].find? (·.name == s)

end Policy

/-- The shape of a cache. -/
structure Geometry where
  kind : CacheKind
  /-- Bytes of a line. -/
  lineSize : Nat
  /-- The lines of the cache. -/
  lines : Nat
  /-- The lines of a set. -/
  ways : Nat
  /-- Cycles taken by an access. -/
  latency : Nat
  policy : Policy
  deriving DecidableEq, Inhabited

namespace Geometry

/-- The number of sets. -/
def sets (g : Geometry) : Except Fault Nat :=
  Word.div g.lines g.ways

/-- The bytes of all lines. -/
def totalBytes (g : Geometry) : Except Fault Nat :=
  Word.mul g.lines g.lineSize

/-- A cache in one line of text. -/
def text (g : Geometry) : Except Fault String := do
  let bytes ← g.totalBytes
  let sets ← g.sets
  return s!"{g.kind.name} {ByteCount.text bytes} "
    ++ s!"({sets} sets x {g.ways} ways x {g.lineSize} B, {g.policy.name})"

end Geometry

end CacheSim
