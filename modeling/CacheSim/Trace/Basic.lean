import CacheSim.Packet.Payload
import CacheSim.Text.Optional

/-!
# Traces

A trace says which accesses the requestors of a system make.  `Trace.validate`
finds the first access that makes no sense, and `Access.toPacket` turns an
access into its request.
-/

namespace CacheSim

/-- Whether an access reads or writes. -/
inductive AccessKind where
  | read
  | write
  deriving DecidableEq, Inhabited

namespace AccessKind

/-- The name of a kind in a document. -/
def name : AccessKind → String
  | read => "read"
  | write => "write"

/-- The kind of a name. -/
def ofName? (s : String) : Option AccessKind :=
  [read, write].find? (·.name == s)

/-- The kind for readers. -/
def text : AccessKind → String
  | read => "Read"
  | write => "Write"

end AccessKind

/-- One access of a requestor. -/
structure Access where
  kind : AccessKind
  addr : UInt64
  /-- The number of bytes; if it is not said, that of the data. -/
  size? : Option UInt32 := none
  /-- The bytes to write, as far as they are said. -/
  data? : Option Bytes := none
  deriving DecidableEq, Inhabited

/-- What one requestor does. -/
structure Script where
  /-- How many responses it refuses before it takes any. -/
  refuseResponses : UInt64 := 0
  accesses : List Access := []
  deriving DecidableEq, Inhabited

/-- What all requestors do. -/
structure Trace where
  scripts : List Script := []
  deriving DecidableEq, Inhabited

namespace Access

/-- The number of bytes, in 32 bits.  A longer list of data has the size that is
left of its length. -/
def size (a : Access) : Nat :=
  match a.size?, a.data? with
  | some n, _ => n.toNat
  | none, some data => (UInt32.ofNat data.length).toNat
  | none, none => 0

/-- The bytes to write: those that are said, cut or filled up with zeros. -/
def bytes (a : Access) : Bytes :=
  let data := a.data?.getD []
  data.take a.size ++ Block.zeros (a.size - data.length)

/-- The request of a requestor for an access. -/
def toPacket (a : Access) (context : Nat) : Packet :=
  match a.kind with
  | .read => .read a.addr.toNat a.size context
  | .write => .write a.addr.toNat a.bytes context

/-- An access by its kind, address and size. -/
def text (a : Access) : String :=
  s!"{a.kind.text}({Hex.number a.addr.toNat}, {a.size})"

/-- All fields of an access. -/
def fieldText (a : Access) : String :=
  let size := optionalText toString a.size?
  let data := optionalText (fun data => "[" ++ ", ".intercalate (data.map toString) ++ "]") a.data?
  s!"Access \x7b kind: {a.kind.text}, addr: {a.addr}, size: {size}, data: {data} \x7d"

end Access

/-- Why a trace is refused. -/
inductive TraceError where
  | noSize (access : Access)
  | readWithData (access : Access)
  | tooMuchData (access : Access)
  deriving DecidableEq

/-- The wording of an error. -/
def TraceError.message : TraceError → String
  | noSize a => s!"access {a.fieldText} has no size"
  | readWithData a => s!"read access {a.fieldText} cannot carry data"
  | tooMuchData a => s!"access {a.fieldText} carries more data than its size"

/-- What is wrong with an access. -/
def Access.validate (a : Access) : Except TraceError Unit := do
  if a.size = 0 then throw (.noSize a)
  if a.kind = .read ∧ a.data?.isSome then throw (.readWithData a)
  if a.size < (a.data?.getD []).length then throw (.tooMuchData a)

/-- The first thing that is wrong with a trace. -/
def Trace.validate (t : Trace) : Except TraceError Unit :=
  (t.scripts.flatMap (·.accesses)).forM Access.validate

end CacheSim
