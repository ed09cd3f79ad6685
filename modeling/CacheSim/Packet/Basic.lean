import CacheSim.Command
import CacheSim.Text.Hex

/-!
# Requests and packets

A `Request` is what a requestor wants.  A `Packet` is one message of the
traffic that serves it: the request itself, its answer, or the fetch of the
whole block around it.  All packets that serve one request share it.
-/

namespace CacheSim

/-- An access wanted by a requestor. -/
structure Request where
  /-- First byte. -/
  addr : Nat
  /-- Number of bytes. -/
  size : Nat
  flags : Nat := 0
  /-- The requestor. -/
  context : Nat := 0
  deriving DecidableEq, Inhabited

/-- A message between a requestor and a memory. -/
structure Packet where
  /-- The access that this packet serves. -/
  request : Request
  /-- First byte. -/
  addr : Nat
  /-- Number of bytes. -/
  size : Nat
  command : Command
  /-- The bytes carried, if room was made for them. -/
  payload : Option Bytes := none
  /-- The identity given by whoever made the packet.  It stays with the packet
  when it turns into its answer. -/
  label : Option Nat := none
  deriving DecidableEq, Inhabited

namespace Packet

/-- A packet over the whole request, without a payload. -/
def ofRequest (request : Request) (command : Command) : Packet :=
  { request, addr := request.addr, size := request.size, command }

/-- A bare packet whose request has no flags. -/
def bare (command : Command) (addr size context : Nat) : Packet :=
  ofRequest { addr, size, context } command

/-- The address of the last byte; that of the first one if there is none. -/
def last (p : Packet) : Nat :=
  p.addr + (p.size - 1)

/-- The command and the first and last byte. -/
def text (p : Packet) : String :=
  s!"{p.command.name} [{Hex.number p.addr}:{Hex.number p.last}]"

/-- The fields of a packet, for diagnosis.  The identity is not shown. -/
def fieldText (p : Packet) : String :=
  s!"Packet \x7b uid: #, cmd: {p.command.name}, addr: \"{Hex.number p.addr}\", size: {p.size}, "
    ++ s!"has_data: {p.payload.isSome}, context: {p.request.context} \x7d"

/-- Two packets are the same one if they bear the same label. -/
def sameAs (p q : Packet) : Bool :=
  p.label == q.label

end Packet

end CacheSim
