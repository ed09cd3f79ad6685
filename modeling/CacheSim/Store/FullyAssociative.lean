import CacheSim.Store.Line
import CacheSim.Store.Replacement
import CacheSim.Sim

/-!
# Fully associative storage

Any line may hold any block.  The lines are kept in the order in which they
came, except that the last one moves into the place of an evicted one.
-/

namespace CacheSim

/-- A bounded list of lines. -/
structure FullyAssociative where
  capacity : Nat
  lineSize : Nat
  policy : Policy
  lines : List Line := []
  /-- The logical time, which counts insertions and touches. -/
  time : Nat := 0
  deriving DecidableEq

namespace FullyAssociative

/-- An empty store, with room for at least one line. -/
def ofSizes? (capacity lineSize : Nat) (policy : Policy) : Except Fault FullyAssociative :=
  if 0 < capacity then .ok { capacity, lineSize, policy } else .error .noLines

/-- The line that holds a block. -/
def lookup (s : FullyAssociative) (addr : Nat) : Option Line :=
  s.lines.find? (·.tag == addr)

/-- Changes the lines of a block. -/
def update (s : FullyAssociative) (addr : Nat) (f : Line → Line) : FullyAssociative :=
  { s with lines := s.lines.map fun l => if l.tag = addr then f l else l }

/-- Records an access. -/
def touch (s : FullyAssociative) (addr : Nat) : FullyAssociative :=
  let time := s.time + 1
  { s with time }.update addr (·.touched time)

/-- Takes out the line at a place and moves the last line there. -/
def swapRemove (lines : List Line) (i : Nat) : Option (Line × List Line) :=
  match lines[i]?, lines.getLast? with
  | some l, some last => some (l, (lines.set i last).dropLast)
  | _, _ => none

/-- Takes out a victim. -/
def evict (s : FullyAssociative) (g : Generator) :
    Sim (Option Line × FullyAssociative × Generator) := do
  let (i, g) ← s.policy.victim? (s.lines.map (·.lastAccess)) g
  match i.bind (swapRemove s.lines) with
  | none => return (none, s, g)
  | some (victim, lines) =>
    Sim.trace fun _ => .ok s!"evicting {Hex.number victim.tag} ({s.policy.name})"
    return (some victim, { s with lines }, g)

/-- Adds a block, and answers the line that made room for it, if the store was full. -/
def insert (s : FullyAssociative) (g : Generator) (addr : Nat) (data : Bytes) :
    Sim (Option Line × FullyAssociative × Generator) := do
  Sim.require ((s.lookup addr).isNone) (.residentBlock addr)
  let (victim, s, g) ← if s.capacity ≤ s.lines.length then s.evict g else pure (none, s, g)
  let time := s.time + 1
  let s := { s with time, lines := s.lines ++ [.fresh addr data time] }
  Sim.require (s.lines.length ≤ s.capacity) .overfullLines
  return (victim, s, g)

end FullyAssociative

end CacheSim
