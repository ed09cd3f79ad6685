import CacheSim.Packet.Basic
import CacheSim.Block

/-!
# Making packets and moving their payload

A payload is as long as its packet.  The operations that set one check this,
and the two that move bytes between a payload and a block check that the
packet lies within the block.
-/

namespace CacheSim.Packet

/-- The text of a packet that does not reach beyond the last address. -/
def text? (p : Packet) : Except Fault String := do
  let _ ← Word.add p.addr (p.size - 1)
  return p.text

/-- A packet over the block that contains the request, without a payload. -/
def ofBlock? (request : Request) (command : Command) (blockSize : Nat) : Except Fault Packet := do
  let addr ← Block.align? blockSize request.addr
  return { request, addr, size := blockSize, command }

/-- Makes room for a payload of zeros, if there is none yet. -/
def allocate (p : Packet) : Packet :=
  { p with payload := some (p.payload.getD (Block.zeros p.size)) }

/-- The packet with `data` as its payload. -/
def setData? (p : Packet) (data : Bytes) : Except Fault Packet :=
  if data.length = p.size then .ok { p with payload := some data }
  else .error (.payloadLength p data.length)

/-- The payload of a packet that should have one. -/
def data? (p : Packet) : Except Fault Bytes :=
  match p.payload with
  | some data => .ok data
  | none => .error (.noPayload p)

/-- A packet with the given payload, or with one of zeros. -/
def build? (command : Command) (addr size context : Nat) (data : Option Bytes) :
    Except Fault Packet :=
  let p := bare command addr size context
  match data with
  | some data => p.setData? data
  | none => .ok p.allocate

/-- A read of `size` bytes with room for the answer. -/
def read (addr size context : Nat) : Packet :=
  (bare .readReq addr size context).allocate

/-- A request with the command that carries exactly `data`. -/
def carrying (command : Command) (addr : Nat) (data : Bytes) (context : Nat) : Packet :=
  { bare command addr data.length context with payload := some data }

/-- A write of `data`. -/
def write (addr : Nat) (data : Bytes) (context : Nat) : Packet :=
  carrying .writeReq addr data context

/-- The way back to memory of an evicted block. -/
def writeback (addr : Nat) (data : Bytes) : Packet :=
  carrying .writebackDirty addr data 0

/-- The place of the first byte within its block. -/
def offset (p : Packet) (blockSize : Nat) : Nat :=
  Block.offset blockSize p.addr

/-- The block of the first byte. -/
def block (p : Packet) (blockSize : Nat) : Nat :=
  Block.align blockSize p.addr

/-- All bytes lie in one block. -/
def Fits (p : Packet) (blockSize : Nat) : Prop :=
  p.offset blockSize + p.size ≤ blockSize

instance (p : Packet) (blockSize : Nat) : Decidable (p.Fits blockSize) :=
  inferInstanceAs (Decidable (_ ≤ _))

/-- Whether all bytes lie in one block, for a block size that may be zero. -/
def fits? (p : Packet) (blockSize : Nat) : Except Fault Bool := do
  let _ ← Block.align? blockSize p.addr
  return decide (p.Fits blockSize)

/-- Checks that a buffer is a block and that the packet lies within one. -/
def checkBlock (p : Packet) (block : Bytes) (blockSize : Nat) : Except Fault Unit := do
  unless block.length = blockSize do throw (.blockLength block.length blockSize)
  unless ← p.fits? blockSize do throw (.spansBlocks p)

/-- The block after the payload was written to its place. -/
def writeToBlock (p : Packet) (block : Bytes) (blockSize : Nat) : Except Fault Bytes := do
  p.checkBlock block blockSize
  return Block.overlay block (p.offset blockSize) (← p.data?)

/-- The packet after its payload was read from its place in the block. -/
def readFromBlock (p : Packet) (block : Bytes) (blockSize : Nat) : Except Fault Packet := do
  p.checkBlock block blockSize
  return { p with payload := some (Block.slice block (p.offset blockSize) p.size) }

/-- The answer to a request, with the same payload. -/
def respond? (p : Packet) : Except Fault Packet :=
  match p.command.response? with
  | some command => .ok { p with command }
  | none => .error (.noResponseForm p)

theorem fits?_of_pos (p : Packet) {blockSize : Nat} (h : 0 < blockSize) :
    p.fits? blockSize = .ok (decide (p.Fits blockSize)) := by
  simp [fits?, Block.align?_of_pos h, bind, Except.bind, pure, Except.pure]

end CacheSim.Packet
