import CacheSim.Store.Line
import CacheSim.Store.Mapping

/-!
# Direct mapped storage

Every block has one slot, that of its set, and a new block takes the place of
the one that was there.
-/

namespace CacheSim

/-- One slot for every set. -/
structure DirectMapped where
  mapping : Mapping
  slots : Vector (Option Line) mapping.sets
  /-- The logical time, which counts insertions and touches. -/
  time : Nat := 0

namespace DirectMapped

/-- A store of empty slots. -/
def ofSizes? (lines lineSize : Nat) : Except Fault DirectMapped := do
  let mapping ← Mapping.ofSizes? lines lineSize
  return { mapping, slots := Vector.replicate mapping.sets none }

/-- The resident lines in the order of their slots. -/
def lines (s : DirectMapped) : List Line :=
  s.slots.toList.filterMap id

/-- The line that holds a block. -/
def lookup (s : DirectMapped) (addr : Nat) : Option Line :=
  s.slots[s.mapping.setIndex addr].filter (·.tag == addr)

/-- Changes the line that holds a block, if there is one. -/
def update (s : DirectMapped) (addr : Nat) (f : Line → Line) : DirectMapped :=
  match s.lookup addr with
  | some l => { s with slots := s.slots.set (s.mapping.setIndex addr) (some (f l)) }
  | none => s

/-- Records an access. -/
def touch (s : DirectMapped) (addr : Nat) : DirectMapped :=
  let time := s.time + 1
  { s with time }.update addr (·.touched time)

/-- Places a block into its slot, and answers what was there. -/
def insert (s : DirectMapped) (addr : Nat) (data : Bytes) :
    Except Fault (Option Line × DirectMapped) := do
  unless s.mapping.tag addr = addr do throw (.unalignedBlock (s.mapping.tag addr) addr)
  if (s.lookup addr).isSome then throw (.residentBlock addr)
  let time := s.time + 1
  let slot := s.mapping.setIndex addr
  return (s.slots[slot], { s with time, slots := s.slots.set slot (some (.fresh addr data time)) })

end DirectMapped

end CacheSim
