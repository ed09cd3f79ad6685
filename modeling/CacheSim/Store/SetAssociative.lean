import CacheSim.Store.Line
import CacheSim.Store.Mapping
import CacheSim.Store.Replacement
import CacheSim.Sim

/-!
# Set associative storage

Every block has one set, and any way of the set may hold it.  A new block takes
the first free way, or else that of a victim among the lines of the set.
-/

namespace CacheSim

/-- The ways of one set; a free way holds nothing. -/
abbrev Ways := List (Option Line)

namespace Ways

/-- The lines of a set. -/
def lines (w : Ways) : List Line :=
  w.filterMap id

/-- The line that holds a block. -/
def lookup (w : Ways) (addr : Nat) : Option Line :=
  w.lines.find? (·.tag == addr)

/-- Changes the lines of a block. -/
def update (w : Ways) (addr : Nat) (f : Line → Line) : Ways :=
  w.map (·.map fun l => if l.tag = addr then f l else l)

end Ways

/-- A number of ways for every set. -/
structure SetAssociative where
  mapping : Mapping
  ways : Nat
  policy : Policy
  sets : Vector Ways mapping.sets
  /-- The logical time, which counts insertions and touches. -/
  time : Nat := 0

namespace SetAssociative

/-- A store of free ways, as many in every set. -/
def ofSizes? (lines ways lineSize : Nat) (policy : Policy) : Except Fault SetAssociative := do
  unless 0 < ways do throw .noWays
  unless lines % ways = 0 do throw (.unevenSets lines ways)
  let mapping ← Mapping.ofSizes? (lines / ways) lineSize
  return { mapping, ways, policy, sets := Vector.replicate mapping.sets (List.replicate ways none) }

/-- The number of lines there is room for. -/
def capacity (s : SetAssociative) : Nat :=
  s.mapping.sets * s.ways

/-- The resident lines, set by set and way by way. -/
def lines (s : SetAssociative) : List Line :=
  s.sets.toList.flatMap Ways.lines

/-- The ways of the set of an address. -/
def setOf (s : SetAssociative) (addr : Nat) : Ways :=
  s.sets[s.mapping.setIndex addr]

/-- The store with other ways in the set of an address. -/
def withSet (s : SetAssociative) (addr : Nat) (w : Ways) : SetAssociative :=
  { s with sets := s.sets.set (s.mapping.setIndex addr) w }

/-- The line that holds a block. -/
def lookup (s : SetAssociative) (addr : Nat) : Option Line :=
  (s.setOf addr).lookup addr

/-- Changes the line that holds a block, if there is one. -/
def update (s : SetAssociative) (addr : Nat) (f : Line → Line) : SetAssociative :=
  s.withSet addr ((s.setOf addr).update addr f)

/-- Records an access. -/
def touch (s : SetAssociative) (addr : Nat) : SetAssociative :=
  let time := s.time + 1
  { s with time }.update addr (·.touched time)

/-- The way for a new block: the first free one, or that of a victim. -/
def chooseWay (s : SetAssociative) (w : Ways) (g : Generator) : Except Fault (Nat × Generator) :=
  match w.findIdx? Option.isNone with
  | some free => .ok (free, g)
  | none => do
    let (i, g) ← s.policy.victim? (w.lines.map (·.lastAccess)) g
    return (i.getD 0, g)

/-- Adds a block to its set, and answers the line that made room for it, if
there was no free way. -/
def insert (s : SetAssociative) (g : Generator) (addr : Nat) (data : Bytes) :
    Sim (Option Line × SetAssociative × Generator) := do
  Sim.require ((s.lookup addr).isNone) (.residentBlock addr)
  let time := s.time + 1
  let w := s.setOf addr
  let (way, g) ← s.chooseWay w g
  Sim.trace fun _ =>
    .ok s!"inserting {Hex.number addr} into set {s.mapping.setIndex addr} way {way}"
  return (w.getD way none, { s with time }.withSet addr (w.set way (some (.fresh addr data time))), g)

end SetAssociative

end CacheSim
