import CacheSim.Document
import CacheSim.Document.Shape
import CacheSim.Trace.Basic

/-!
# Traces as documents

How a trace is written as a document, and how it is read from one.  Fields that
are not known are passed over.
-/

namespace CacheSim

/-- The document of bytes: a list of numbers. -/
def Document.ofBytes (data : Bytes) : Document :=
  .list (data.map fun b => .nat b.toNat)

namespace Access

/-- The fields of an access. -/
def schema : Document.Schema :=
  { names := ["kind", "addr", "size", "data"], required := 2 }

/-- What the fields of an access are read as. -/
def shape : Document.Shape :=
  .record schema.names fun
    | "kind" => .name
    | "size" => .optional .number
    | "data" => .optional (.list .number)
    | _ => .number

/-- The document of an access.  Data that is not said is left out. -/
def toDocument (a : Access) : Document :=
  let data := match a.data? with
    | none => []
    | some data => [("data", Document.ofBytes data)]
  .record ([
    ("kind", .text a.kind.name),
    ("addr", .nat a.addr.toNat),
    ("size", .ofOption (fun n => .nat n.toNat) a.size?)] ++ data)

/-- Reads an access. -/
def ofDocument? (d : Document) : Option Access := do
  match ← d.fields? schema with
  | [some kind, some addr, size, data] =>
    return {
      kind := ← AccessKind.ofName? (← kind.toName?)
      addr := ← addr.toUInt64?
      size? := ← Document.orDefault none (·.toOption? Document.toUInt32?) size
      data? := ← Document.orDefault none (·.toOption? (·.toList? Document.toByte?)) data }
  | _ => none

end Access

namespace Script

/-- The fields of a script. -/
def schema : Document.Schema :=
  { names := ["refuse_responses", "accesses"], required := 2 }

/-- What the fields of a script are read as. -/
def shape : Document.Shape :=
  .record schema.names fun
    | "accesses" => .list Access.shape
    | _ => .number

/-- The document of a script. -/
def toDocument (s : Script) : Document :=
  .record [
    ("refuse_responses", .nat s.refuseResponses.toNat),
    ("accesses", .list (s.accesses.map Access.toDocument))]

/-- Reads a script. -/
def ofDocument? (d : Document) : Option Script := do
  match ← d.fields? schema with
  | [refuse, some accesses] =>
    return {
      refuseResponses := ← Document.orDefault 0 Document.toUInt64? refuse
      accesses := ← accesses.toList? Access.ofDocument? }
  | _ => none

end Script

namespace Trace

/-- The fields of a trace. -/
def schema : Document.Schema :=
  { names := ["initiators"], required := 1 }

/-- What the fields of a trace are read as. -/
def shape : Document.Shape :=
  .record schema.names fun _ => .list Script.shape

/-- The document of a trace. -/
def toDocument (t : Trace) : Document :=
  .record [("initiators", .list (t.scripts.map Script.toDocument))]

/-- Reads a trace. -/
def ofDocument? (d : Document) : Option Trace := do
  match ← d.fields? schema with
  | [some scripts] => return { scripts := ← scripts.toList? Script.ofDocument? }
  | _ => none

end Trace

end CacheSim
