import CacheSim.Config.Size
import CacheSim.Geometry
import CacheSim.Text.Quoted

/-!
# Configurations

What a user says about a system: its cache, its memory, its clock and the seed
of its generator.  Everything has a default.  `Config.validate` finds the first
thing that a system cannot be built with, and `Config.geometry` derives the
shape of the cache.
-/

namespace CacheSim

/-- What is said about the cache. -/
structure CacheConfig where
  kind : CacheKind := .directMapped
  size : Size := ⟨16384⟩
  /-- Cycles taken by an access. -/
  latency : UInt64 := 1
  /-- The lines of a set of a set associative cache. -/
  setSize : Option UInt64 := none
  /-- A fully associative cache replaces the least recently used line. -/
  optimized : Bool := false
  /-- How a set associative cache replaces lines. -/
  policy : Option Policy := none
  /-- The number of ports for requestors. -/
  ports : UInt64 := 1
  deriving DecidableEq, Inhabited

/-- What is said about the memory. -/
structure MemoryConfig where
  /-- Cycles taken by an access. -/
  latency : UInt64 := 30
  /-- How many responses may be on their way. -/
  buffer : UInt64 := 16
  /-- The bytes of the memory, which starts at address zero. -/
  range : Size := ⟨536870912⟩
  deriving DecidableEq, Inhabited

/-- What is said about a system. -/
structure Config where
  /-- The bytes of a cache line. -/
  lineSize : UInt32 := 64
  /-- The ticks of a clock cycle. -/
  clockPeriod : UInt64 := 1000
  /-- The seed of the random generator. -/
  seed : UInt64 := 0
  cache : CacheConfig := {}
  memory : MemoryConfig := {}
  deriving DecidableEq, Inhabited

/-- Why a configuration is refused. -/
inductive ConfigError where
  /-- A text that is no size. -/
  | invalidSize (text : String)
  | lineSizeNotPowerOfTwo (lineSize : Nat)
  | zeroClockPeriod
  | zeroCacheLatency
  | sizeNotMultiple (size : Size) (lineSize : Nat)
  | unevenSets (ways lines : Nat)
  | noCpuPorts
  | noRequestBuffer
  deriving DecidableEq

namespace ConfigError

/-- The wording of an error. -/
def message : ConfigError → String
  | invalidSize s => "invalid memory size " ++ Quoted.text s
  | lineSizeNotPowerOfTwo n => s!"invalid config: cache line size {n} is not a power of two"
  | zeroClockPeriod => "invalid config: clock period must be non-zero"
  | zeroCacheLatency => "invalid config: cache latency must be non-zero"
  | sizeNotMultiple size n =>
    s!"invalid config: cache size {size.text} is not a multiple of the line size {n}"
  | unevenSets ways lines =>
    s!"invalid config: set size {ways} does not divide the {lines} cache lines"
  | noCpuPorts => "invalid config: cache needs at least one cpu side port"
  | noRequestBuffer => "invalid config: memory request buffer must hold at least one request"

end ConfigError

/-- The size that a text means, or why it means none. -/
def Size.parse (s : String) : Except ConfigError Size :=
  match ofString? s with
  | some size => .ok size
  | none => .error (.invalidSize (String.ofList (trimBlanks s.toList)))

namespace CacheConfig

/-- The lines of a set if none is said. -/
def defaultSetSize : Nat := 4

/-- The lines of a set of a cache with a number of lines. -/
def ways (c : CacheConfig) (lines : Nat) : Nat :=
  match c.kind with
  | .directMapped => 1
  | .fullyAssociative => lines
  | .setAssociative => (c.setSize.map UInt64.toNat).getD defaultSetSize

/-- The policy that the cache follows. -/
def effectivePolicy (c : CacheConfig) : Policy :=
  match c.kind with
  | .directMapped => .random
  | .fullyAssociative => if c.optimized then .lru else .random
  | .setAssociative => c.policy.getD .random

end CacheConfig

namespace Config

/-- The number of cache lines. -/
def lines (c : Config) : Except Fault Nat :=
  Word.div c.cache.size.bytes.toNat c.lineSize.toNat

/-- The shape of the cache. -/
def geometry (c : Config) : Except Fault Geometry := do
  let lines ← c.lines
  return {
    kind := c.cache.kind
    lineSize := c.lineSize.toNat
    lines
    ways := c.cache.ways lines
    latency := c.cache.latency.toNat
    policy := c.cache.effectivePolicy }

/-- A power of two. -/
def isPowerOfTwo (n : Nat) : Bool :=
  n = 1 <<< n.log2

/-- The first thing that a system cannot be built with. -/
def validate (c : Config) : Except ConfigError Unit := do
  let lineSize := c.lineSize.toNat
  let size := c.cache.size.bytes.toNat
  unless lineSize ≠ 0 ∧ isPowerOfTwo lineSize do throw (.lineSizeNotPowerOfTwo lineSize)
  unless c.clockPeriod ≠ 0 do throw .zeroClockPeriod
  unless c.cache.latency ≠ 0 do throw .zeroCacheLatency
  unless size ≠ 0 ∧ size % lineSize = 0 do throw (.sizeNotMultiple c.cache.size lineSize)
  let lines := size / lineSize
  let ways := c.cache.ways lines
  unless ways ≠ 0 ∧ lines % ways = 0 do throw (.unevenSets ways lines)
  unless c.cache.ports ≠ 0 do throw .noCpuPorts
  unless c.memory.buffer ≠ 0 do throw .noRequestBuffer

end Config

end CacheSim
