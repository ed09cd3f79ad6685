import Std.Data.TreeMap
import CacheSim.Block

/-!
# Sparse bytes

A flat array of bytes over all addresses, of which only the chunks that were
written are kept.  A byte that was never written is zero.  `Chunks.byte` is the
array; the other operations are said in terms of it.
-/

namespace CacheSim

/-- Chunks of bytes by the address of their first byte. -/
structure Chunks where
  table : Std.TreeMap Nat Bytes := {}

namespace Chunks

/-- The bytes of a chunk. -/
def chunkSize : Nat := 64

/-- The array of zeros. -/
def empty : Chunks := {}

/-- The chunk at the address of its first byte. -/
def chunk (c : Chunks) (base : Nat) : Bytes :=
  (c.table.get? base).getD (Block.zeros chunkSize)

/-- The byte at an address. -/
def byte (c : Chunks) (addr : Nat) : UInt8 :=
  (c.chunk (Block.align chunkSize addr)).getD (Block.offset chunkSize addr) 0

/-- Changes the byte at an address. -/
def setByte (c : Chunks) (addr : Nat) (b : UInt8) : Chunks :=
  let base := Block.align chunkSize addr
  { table := c.table.insert base ((c.chunk base).set (Block.offset chunkSize addr) b) }

/-- The `size` bytes from an address on. -/
def slice (c : Chunks) (addr : Nat) : Nat → Bytes
  | 0 => []
  | size + 1 => c.byte addr :: c.slice (addr + 1) size

/-- Changes the bytes from an address on. -/
def overlay (c : Chunks) (addr : Nat) : Bytes → Chunks
  | [] => c
  | b :: rest => (c.setByte addr b).overlay (addr + 1) rest

/-- Checks that a range of bytes does not reach beyond the last address. -/
def checkLast (addr size : Nat) : Except Fault Unit := do
  let _ ← Word.add addr (size - 1)

/-- The bytes of a range that may reach beyond the last address. -/
def read (c : Chunks) (addr size : Nat) : Except Fault Bytes := do
  checkLast addr size
  return c.slice addr size

/-- Changes the bytes of a range that may reach beyond the last address. -/
def write (c : Chunks) (addr : Nat) (data : Bytes) : Except Fault Chunks := do
  checkLast addr data.length
  return c.overlay addr data

end Chunks

end CacheSim
