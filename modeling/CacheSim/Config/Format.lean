import CacheSim.Config.Basic
import CacheSim.Document
import CacheSim.Document.Shape

/-!
# Configurations as documents

How a configuration is written as a document, and how it is read from one.
Every field may be left out, and a field that is not known is refused.
-/

namespace CacheSim

namespace Size

/-- The document of a size: the number of bytes. -/
def toDocument (s : Size) : Document :=
  .nat s.bytes.toNat

/-- Reads a size, which is a number of bytes or a text. -/
def ofDocument? : Document → Option Size
  | .text s => ofString? s
  | d => d.toUInt64?.map Size.mk

end Size

/-- Reads the name of a cache kind. -/
def CacheKind.ofDocument? (d : Document) : Option CacheKind := do
  ofName? (← d.toName?)

/-- Reads the name of a policy. -/
def Policy.ofDocument? (d : Document) : Option Policy := do
  ofName? (← d.toName?)

namespace CacheConfig

/-- The fields of the cache. -/
def schema : Document.Schema :=
  { names := ["kind", "size", "latency", "set_size", "optimized_algorithm",
      "replacement_policy", "num_cpu_side_ports"]
    closed := true }

/-- What the fields of the cache are read as. -/
def shape : Document.Shape :=
  .record schema.names fun
    | "kind" => .name
    | "size" => .numberOrText
    | "set_size" => .optional .number
    | "optimized_algorithm" => .flag
    | "replacement_policy" => .optional .name
    | _ => .number

/-- The document of what is said about the cache. -/
def toDocument (c : CacheConfig) : Document :=
  .record [
    ("kind", .text c.kind.name),
    ("size", c.size.toDocument),
    ("latency", .nat c.latency.toNat),
    ("set_size", .ofOption (fun n => .nat n.toNat) c.setSize),
    ("optimized_algorithm", .bool c.optimized),
    ("replacement_policy", .ofOption (fun p => .text p.name) c.policy),
    ("num_cpu_side_ports", .nat c.ports.toNat)]

/-- Reads what is said about the cache. -/
def ofDocument? (d : Document) : Option CacheConfig := do
  let default : CacheConfig := {}
  match ← d.fields? schema with
  | [kind, size, latency, setSize, optimized, policy, ports] =>
    return {
      kind := ← Document.orDefault default.kind CacheKind.ofDocument? kind
      size := ← Document.orDefault default.size Size.ofDocument? size
      latency := ← Document.orDefault default.latency Document.toUInt64? latency
      setSize := ← Document.orDefault default.setSize (·.toOption? Document.toUInt64?) setSize
      optimized := ← Document.orDefault default.optimized Document.toBool? optimized
      policy := ← Document.orDefault default.policy (·.toOption? Policy.ofDocument?) policy
      ports := ← Document.orDefault default.ports Document.toUInt64? ports }
  | _ => none

end CacheConfig

namespace MemoryConfig

/-- The fields of the memory. -/
def schema : Document.Schema :=
  { names := ["latency", "request_buffer_size", "range"], closed := true }

/-- What the fields of the memory are read as. -/
def shape : Document.Shape :=
  .record schema.names fun
    | "range" => .numberOrText
    | _ => .number

/-- The document of what is said about the memory. -/
def toDocument (c : MemoryConfig) : Document :=
  .record [
    ("latency", .nat c.latency.toNat),
    ("request_buffer_size", .nat c.buffer.toNat),
    ("range", c.range.toDocument)]

/-- Reads what is said about the memory. -/
def ofDocument? (d : Document) : Option MemoryConfig := do
  let default : MemoryConfig := {}
  match ← d.fields? schema with
  | [latency, buffer, range] =>
    return {
      latency := ← Document.orDefault default.latency Document.toUInt64? latency
      buffer := ← Document.orDefault default.buffer Document.toUInt64? buffer
      range := ← Document.orDefault default.range Size.ofDocument? range }
  | _ => none

end MemoryConfig

namespace Config

/-- The fields of a system. -/
def schema : Document.Schema :=
  { names := ["cache_line_size", "clock_period", "seed", "cache", "memory"], closed := true }

/-- What the fields of a system are read as. -/
def shape : Document.Shape :=
  .record schema.names fun
    | "cache" => CacheConfig.shape
    | "memory" => MemoryConfig.shape
    | _ => .number

/-- The document of a configuration. -/
def toDocument (c : Config) : Document :=
  .record [
    ("cache_line_size", .nat c.lineSize.toNat),
    ("clock_period", .nat c.clockPeriod.toNat),
    ("seed", .nat c.seed.toNat),
    ("cache", c.cache.toDocument),
    ("memory", c.memory.toDocument)]

/-- Reads a configuration. -/
def ofDocument? (d : Document) : Option Config := do
  let default : Config := {}
  match ← d.fields? schema with
  | [lineSize, clockPeriod, seed, cache, memory] =>
    return {
      lineSize := ← Document.orDefault default.lineSize Document.toUInt32? lineSize
      clockPeriod := ← Document.orDefault default.clockPeriod Document.toUInt64? clockPeriod
      seed := ← Document.orDefault default.seed Document.toUInt64? seed
      cache := ← Document.orDefault default.cache CacheConfig.ofDocument? cache
      memory := ← Document.orDefault default.memory MemoryConfig.ofDocument? memory }
  | _ => none

end Config

end CacheSim
