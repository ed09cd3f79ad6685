import CacheSim.Block

/-!
# Mapping of addresses to sets

Consecutive blocks belong to consecutive sets, and after the last set comes the
first one again.  Neither the number of sets nor the size of a block need be a
power of two.
-/

namespace CacheSim

/-- A number of sets and the size of a block, neither of them zero. -/
structure Mapping where
  sets : Nat
  lineSize : Nat
  sets_pos : 0 < sets
  lineSize_pos : 0 < lineSize
  deriving DecidableEq

namespace Mapping

/-- The mapping of a number of sets and a block size. -/
def ofSizes? (sets lineSize : Nat) : Except Fault Mapping :=
  if hs : 0 < sets then
    if hl : 0 < lineSize then .ok ⟨sets, lineSize, hs, hl⟩ else .error .zeroLineSize
  else .error .noSets

/-- The block of an address. -/
def block (m : Mapping) (addr : Nat) : Nat :=
  Block.align m.lineSize addr

/-- The tag of an address: its block, which holds the number of the set too. -/
def tag (m : Mapping) (addr : Nat) : Nat :=
  m.block addr

/-- The set of an address. -/
def setIndex (m : Mapping) (addr : Nat) : Fin m.sets :=
  ⟨addr / m.lineSize % m.sets, Nat.mod_lt _ m.sets_pos⟩

end Mapping

end CacheSim
