import CacheSim.Document
import CacheSim.Stats.Counters

/-!
# Statistics as documents

How statistics are written as documents, and how they are read from them.
-/

namespace CacheSim

/-- Reads a count of 64 bits. -/
def Document.toCount? (d : Document) : Option Nat :=
  d.toNat? Word.bound

namespace Histogram

/-- The fields of a histogram. -/
def schema : Document.Schema :=
  { names := ["buckets", "bucket_size", "samples", "sum", "min", "max"], required := 6 }

/-- The document of a histogram. -/
def toDocument (h : Histogram) : Document :=
  .record [
    ("buckets", .list (h.buckets.map Document.nat)),
    ("bucket_size", .nat h.bucketSize),
    ("samples", .nat h.samples),
    ("sum", .nat h.sum),
    ("min", .ofOption .nat h.min),
    ("max", .ofOption .nat h.max)]

/-- Reads a histogram. -/
def ofDocument? (d : Document) : Option Histogram := do
  match ← d.fields? schema with
  | [some buckets, some bucketSize, some samples, some sum, min, max] =>
    return {
      buckets := ← buckets.toList? Document.toCount?
      bucketSize := ← bucketSize.toCount?
      samples := ← samples.toCount?
      sum := ← sum.toCount?
      min := ← Document.orDefault none (·.toOption? Document.toCount?) min
      max := ← Document.orDefault none (·.toOption? Document.toCount?) max }
  | _ => none

end Histogram

namespace CacheStats

/-- The fields of the statistics of a cache. -/
def schema : Document.Schema :=
  { names := ["hits", "misses", "miss_latency"], required := 3 }

/-- The document of the statistics of a cache. -/
def toDocument (s : CacheStats) : Document :=
  .record [
    ("hits", .nat s.hits),
    ("misses", .nat s.misses),
    ("miss_latency", s.missLatency.toDocument)]

/-- Reads the statistics of a cache. -/
def ofDocument? (d : Document) : Option CacheStats := do
  match ← d.fields? schema with
  | [some hits, some misses, some missLatency] =>
    return {
      hits := ← hits.toCount?
      misses := ← misses.toCount?
      missLatency := ← Histogram.ofDocument? missLatency }
  | _ => none

end CacheStats

end CacheSim
