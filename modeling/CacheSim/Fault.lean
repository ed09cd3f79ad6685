import CacheSim.Packet.Basic
import CacheSim.Cache.Phase
import CacheSim.Text.Optional

/-!
# Faults

A `Fault` is the cause that stops a computation: a number that leaves its 64
bits, or a caller that breaks the rules of a component.  `Fault.message` holds
the wording.  A component is named in a fault by the name it was built with.
-/

namespace CacheSim

/-- Why a computation stopped. -/
inductive Fault where
  /-- A sum above 64 bits. -/
  | addOverflow
  /-- A difference below zero. -/
  | subOverflow
  /-- A product above 64 bits. -/
  | mulOverflow
  | divideByZero
  | remainderByZero
  | indexOutOfBounds (length index : Nat)
  /-- A draw from no candidates. -/
  | emptyRange
  /-- A clock without a period. -/
  | zeroPeriod
  /-- An event before the current time. -/
  | eventInPast (tick now : Nat)
  | timeBackwards (now tick : Nat)
  /-- Time would pass a pending event without firing it. -/
  | pastPendingEvent (tick next : Nat)
  /-- A histogram whose buckets cannot be merged in pairs. -/
  | oddBuckets (buckets : Nat)
  /-- A merge of histograms of different bucket counts. -/
  | bucketMismatch (buckets others : Nat)
  /-- Buckets of width zero never reach the wanted width. -/
  | endlessGrowth
  | payloadLength (packet : Packet) (length : Nat)
  | noPayload (packet : Packet)
  | spansBlocks (packet : Packet)
  | noResponseForm (packet : Packet)
  /-- A block buffer of another size than the block size. -/
  | blockLength (length blockSize : Nat)
  /-- A store without sets. -/
  | noSets
  | zeroLineSize
  /-- A fully associative store without lines. -/
  | noLines
  /-- A set without ways. -/
  | noWays
  | unevenSets (lines ways : Nat)
  | unalignedBlock (tag addr : Nat)
  /-- A block inserted twice into a store. -/
  | residentBlock (addr : Nat)
  /-- A port that already holds a refused packet was given another. -/
  | portOccupied (port : String)
  | noParkedResponse (port : String)
  | noParkedRequest (port : String)
  | noCpuPorts (cache : String)
  | lineSizeMismatch (cache : String) (stored configured : Nat)
  | noSuchCpuPort (cache : String) (port : Nat)
  | notVectorPort (cache : String) (index : Nat)
  | noSuchPort (cache interface : String) (index : Option Nat)
  /-- A timing request that has no answer. -/
  | unansweredRequest (cache : String) (packet : Packet)
  /-- An access event for a cache that scheduled none. -/
  | strayAccess (cache : String) (phase : Phase)
  | spansLines (cache : String) (packet : Packet)
  /-- An access that is neither a read nor a write. -/
  | unknownAccess (packet : Packet)
  | unknownUpgrade (cache : String) (packet : Packet)
  /-- A response to a cache that is serving no request. -/
  | uninvitedResponse (cache : String) (packet : Packet)
  | notResponse (component : String) (packet : Packet)
  /-- A response before the access was performed. -/
  | earlyResponse (phase : Phase)
  | unalignedFill (cache : String) (packet : Packet) (block : Nat)
  | partialFill (size lineSize : Nat)
  | residentFill (cache : String) (addr : Nat)
  /-- A request was given as the block to install. -/
  | requestFill
  /-- More lines than there is room for. -/
  | overfullStore
  | overfullLines
  /-- The block that came does not hold the access that waited for it. -/
  | missAfterFill (cache : String) (packet : Packet)
  /-- An answer of a cache that is serving no request. -/
  | answerUnblocked (cache : String)
  /-- An answer that no port waits for. -/
  | noWaitingPort (cache : String) (packet : Packet)
  | atomicUnsupported (cache : String) (packet : Packet) (port : Nat)
  | outsideRange (memory : String) (packet : Packet) (start stop : Nat)
  /-- An access of a memory that is neither a read nor a write. -/
  | unexpectedAccess (memory : String) (packet : Packet)
  | unexpectedResponse (requestor : String) (packet : Packet)
  | foreignResponse (requestor : String) (packet : Packet) (id : Nat)
  /-- A complete access was refused at once. -/
  | accessRefused (packet : Packet)
  | responseCount (count expected : Nat)

namespace Fault

/-- The report of two values that should be equal. -/
def unequal (left right : String) (note : String) : String :=
  let note := if note.isEmpty then "" else ": " ++ note
  s!"assertion `left == right` failed{note}\n  left: {left}\n right: {right}"

/-- The report of two numbers that should be equal. -/
def unequalNumbers (left right : Nat) (note : String := "") : String :=
  unequal (toString left) (toString right) note

/-- The wording of a fault. -/
def message : Fault → String
  | addOverflow => "attempt to add with overflow"
  | subOverflow => "attempt to subtract with overflow"
  | mulOverflow => "attempt to multiply with overflow"
  | divideByZero => "attempt to divide by zero"
  | remainderByZero => "attempt to calculate the remainder with a divisor of zero"
  | indexOutOfBounds n i => s!"index out of bounds: the len is {n} but the index is {i}"
  | emptyRange => "cannot pick from an empty range"
  | zeroPeriod => "clock period must be non-zero"
  | eventInPast t now => s!"cannot schedule event in the past (when={t}, now={now})"
  | timeBackwards now t => s!"cannot move time backwards from {now} to {t}"
  | pastPendingEvent t next => s!"cannot advance to {t} past pending event at {next}"
  | oddBuckets n => s!"histogram needs an even number of buckets (got {n})"
  | bucketMismatch n m => unequalNumbers n m
  | endlessGrowth => "buckets of width zero cannot grow"
  | payloadLength p n => unequalNumbers n p.size s!"payload size does not match packet {p.text}"
  | noPayload p => s!"packet {p.text} has no data"
  | spansBlocks p => s!"cannot handle accesses that span multiple cache lines: {p.text}"
  | noResponseForm p => s!"packet {p.text} does not need a response"
  | blockLength n size => unequalNumbers n size
  | noSets => "need at least one set"
  | zeroLineSize => "line size must be non-zero"
  | noLines => "fully associative cache needs at least one line"
  | noWays => "need at least one way per set"
  | unevenSets lines ways =>
    unequalNumbers (lines % ways) 0 s!"set size {ways} does not divide {lines} lines"
  | unalignedBlock tag addr =>
    unequalNumbers tag addr s!"inserting unaligned block {Hex.number addr}"
  | residentBlock addr => s!"block {Hex.number addr} is already resident"
  | portOccupied port => s!"{port}: should never try to send if blocked"
  | noParkedResponse port => s!"{port}: response retry without a parked response"
  | noParkedRequest port => s!"{port}: request retry without a parked request"
  | noCpuPorts cache => s!"{cache}: need at least one cpu side port"
  | lineSizeMismatch cache stored configured =>
    unequalNumbers stored configured s!"{cache}: storage block size does not match line size"
  | noSuchCpuPort cache port => s!"{cache}: no cpu side port {port}"
  | notVectorPort cache i => s!"{cache}: mem_side is not a vector port (got index {i})"
  | noSuchPort cache interface i => s!"{cache}: no such port {interface}[{optionalText toString i}]"
  | unansweredRequest cache p => s!"{cache}: timing request {p.text} does not need a response"
  | strayAccess cache phase =>
    unequal phase.name Phase.waitAccess.name s!"{cache}: access fired while {phase.name}"
  | spansLines cache p =>
    s!"{cache}: cannot handle accesses that span multiple cache lines: {p.text}"
  | unknownAccess p => s!"unknown packet type {p.text} in functional access"
  | unknownUpgrade cache p => s!"{cache}: unknown packet type {p.text} in upgrade"
  | uninvitedResponse cache p => s!"{cache}: got response {p.text} while not waiting for one"
  | notResponse component p => s!"{component}: {p.text} is not a response"
  | earlyResponse phase => unequal phase.name Phase.waitMem.name ""
  | unalignedFill cache p block =>
    unequalNumbers p.addr block s!"{cache}: inserting unaligned {p.text}"
  | partialFill size lineSize => unequalNumbers size lineSize
  | residentFill cache addr => s!"{cache}: block {Hex.number addr} is already resident"
  | requestFill => "assertion failed: packet.is_response()"
  | overfullStore => "assertion failed: self.store.len() <= self.store.capacity()"
  | overfullLines => "assertion failed: self.lines.len() <= self.capacity"
  | missAfterFill cache p => s!"{cache}: should always hit after inserting ({p.text})"
  | answerUnblocked cache => s!"{cache}: response while not blocked"
  | noWaitingPort cache p => s!"{cache}: no port is waiting for {p.text}"
  | atomicUnsupported cache p port =>
    s!"{cache}: atomic access {p.text} on port {port} is not supported"
  | outsideRange memory p start stop =>
    s!"{memory}: {p.text} is outside of {Hex.number start}..{Hex.number stop}"
  | unexpectedAccess memory p => s!"{memory}: unexpected {p.text}"
  | unexpectedResponse requestor p => s!"{requestor}: unexpected response {p.text}"
  | foreignResponse requestor p id =>
    unequalNumbers p.request.context id
      s!"{requestor}: response {p.text} belongs to another requestor"
  | accessRefused p => s!"cache refused {p.text}"
  | responseCount n expected => unequalNumbers n expected "expected exactly one response"

end Fault

end CacheSim
