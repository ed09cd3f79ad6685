import CacheSim.Packet.Payload
import CacheSim.Store.DirectMapped
import CacheSim.Store.FullyAssociative
import CacheSim.Store.SetAssociative

/-!
# Stores

A store keeps cache lines in one of three organisations, with a generator for
the random choice of victims.  It is read through `Store.lines` and
`Store.lookup`, and `Store.access` performs a packet against a resident line.
-/

namespace CacheSim

/-- Lines in one of three organisations. -/
inductive Organization where
  | direct (s : DirectMapped)
  | full (s : FullyAssociative)
  | sets (s : SetAssociative)

/-- Lines and the generator for the choice of victims. -/
structure Store where
  organization : Organization
  generator : Generator

namespace Store

/-- An empty store of the given shape. -/
def ofGeometry? (g : Geometry) (generator : Generator) : Except Fault Store := do
  let organization ← match g.kind with
    | .directMapped => Organization.direct <$> DirectMapped.ofSizes? g.lines g.lineSize
    | .fullyAssociative =>
      Organization.full <$> FullyAssociative.ofSizes? g.lines g.lineSize g.policy
    | .setAssociative =>
      Organization.sets <$> SetAssociative.ofSizes? g.lines g.ways g.lineSize g.policy
  return { organization, generator }

/-- The resident lines. -/
def lines (s : Store) : List Line :=
  match s.organization with
  | .direct d => d.lines
  | .full f => f.lines
  | .sets a => a.lines

/-- The number of resident lines. -/
def size (s : Store) : Nat :=
  s.lines.length

/-- The greatest number of resident lines. -/
def capacity (s : Store) : Nat :=
  match s.organization with
  | .direct d => d.mapping.sets
  | .full f => f.capacity
  | .sets a => a.capacity

/-- The bytes of a line. -/
def lineSize (s : Store) : Nat :=
  match s.organization with
  | .direct d => d.mapping.lineSize
  | .full f => f.lineSize
  | .sets a => a.mapping.lineSize

/-- The line that holds a block. -/
def lookup (s : Store) (addr : Nat) : Option Line :=
  match s.organization with
  | .direct d => d.lookup addr
  | .full f => f.lookup addr
  | .sets a => a.lookup addr

/-- Changes the line that holds a block, if there is one. -/
def update (s : Store) (addr : Nat) (f : Line → Line) : Store :=
  { s with
    organization := match s.organization with
      | .direct d => .direct (d.update addr f)
      | .full a => .full (a.update addr f)
      | .sets a => .sets (a.update addr f) }

/-- Records an access, which makes time pass even if the block is not resident. -/
def touch (s : Store) (addr : Nat) : Store :=
  { s with
    organization := match s.organization with
      | .direct d => .direct (d.touch addr)
      | .full f => .full (f.touch addr)
      | .sets a => .sets (a.touch addr) }

/-- Adds a block that is not resident, and answers the evicted line, if any. -/
def insert (s : Store) (addr : Nat) (data : Bytes) : Sim (Option Line × Store) := do
  match s.organization with
  | .direct d =>
    let (victim, d) ← d.insert addr data
    return (victim, { s with organization := .direct d })
  | .full f =>
    let (victim, f, generator) ← f.insert s.generator addr data
    return (victim, { organization := .full f, generator })
  | .sets a =>
    let (victim, a, generator) ← a.insert s.generator addr data
    return (victim, { organization := .sets a, generator })

/-- Performs a packet against the resident line of its block: a write changes
the line and a read fills the payload.  Answers nothing if the block is not
resident. -/
def access (s : Store) (p : Packet) : Sim (Option (Packet × Store)) := do
  let size := s.lineSize
  let block ← Block.align? size p.addr
  match s.lookup block with
  | none => return none
  | some line =>
    let (p, data) ←
      if p.command.isWrite then do
        let data ← p.writeToBlock line.data size
        pure (p, data)
      else do
        Sim.require p.command.isRead (.unknownAccess p)
        let p ← p.readFromBlock line.data size
        pure (p, line.data)
    Sim.trace fun _ => .ok s!"{p.command.name} {Hex.number block}: {Hex.dump data}"
    return some (p, s.update block (·.holding data))

end Store

end CacheSim
