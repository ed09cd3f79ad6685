import CacheSim.Stats.Histogram
import CacheSim.Decimal.Layout
import CacheSim.Text.Optional
import CacheSim.Text.Rows

/-!
# Statistics of a cache

Hits, misses, and how long misses took.  Statistics of parts are added up, and
they are shown as named figures, as rows or for diagnosis.
-/

namespace CacheSim

/-- What a cache counts. -/
structure CacheStats where
  hits : Nat := 0
  misses : Nat := 0
  /-- The ticks from the detection of a miss to the arrival of its block. -/
  missLatency : Histogram := .empty 16
  deriving DecidableEq, Inhabited

namespace CacheStats

/-- The accesses counted. -/
def total (s : CacheStats) : Except Fault Nat :=
  Word.add s.hits s.misses

/-- A count as a floating point number. -/
def figure (n : Nat) : Float :=
  (UInt64.ofNat n).toFloat

/-- The share of hits in all accesses; not a number if there were none. -/
def hitRatio (s : CacheStats) : Except Fault Float := do
  return figure s.hits / figure (← s.total)

/-- The statistics of two parts together. -/
def add (s t : CacheStats) : Except Fault CacheStats := do
  let hits ← Word.add s.hits t.hits
  let misses ← Word.add s.misses t.misses
  let missLatency ← s.missLatency.merge t.missLatency
  return { hits, misses, missLatency }

/-- The figures of the buckets from number `i` on, each named by its range. -/
def bucketFigures (bucketSize : Nat) : Nat → List Nat → Except Fault (List (String × Float))
  | _, [] => .ok []
  | i, count :: rest => do
    let low ← Word.mul i bucketSize
    let next ← Word.add low bucketSize
    let high ← Word.sub next 1
    let figures ← bucketFigures bucketSize (i + 1) rest
    return (s!"miss_latency::{low}-{high}", figure count) :: figures

/-- All figures by name. -/
def figures (s : CacheStats) : Except Fault (List (String × Float)) := do
  let h := s.missLatency
  let ratio ← s.hitRatio
  let buckets ← bucketFigures h.bucketSize 0 h.buckets
  return [
    ("hits", figure s.hits),
    ("misses", figure s.misses),
    ("hit_ratio", ratio),
    ("miss_latency::samples", figure h.samples),
    ("miss_latency::mean", h.mean.getD 0.0),
    ("miss_latency::bucket_size", figure h.bucketSize)] ++ buckets

/-- Figures in rows: a point always, an exponent below a hundred thousandth and
from ten to the sixteenth on. -/
def rowLayout : Decimal.Layout :=
  { positional := some (-5, 16), keepPoint := true }

/-- Figures for diagnosis: as in rows, but an exponent below a ten thousandth. -/
def diagnosticLayout : Decimal.Layout :=
  { positional := some (-4, 16), keepPoint := true }

/-- Figures in a listing: never an exponent, and no point in whole numbers. -/
def listingLayout : Decimal.Layout :=
  { positional := none, keepPoint := false }

/-- The figures as rows under a header. -/
def rows (s : CacheStats) : Except Fault String := do
  let figures ← s.figures
  let records := figures.map fun (name, x) => [name, rowLayout.text x]
  match Rows.write (["stat", "value"] :: records) with
  | .ok text => return text
  | .error _ => return ""

/-- The figures one a line, the names padded to forty characters. -/
def listing (s : CacheStats) : Except Fault String := do
  let figures ← s.figures
  return String.join <| figures.map fun (name, x) =>
    name ++ "".pushn ' ' (40 - name.length) ++ " " ++ listingLayout.text x ++ "\n"

/-- The names and texts shown for diagnosis. -/
def diagnosticFields (s : CacheStats) (mean : Option Float → String) :
    Except Fault (List (String × String)) := do
  let ratio ← s.hitRatio
  return [
    ("hits", toString s.hits),
    ("misses", toString s.misses),
    ("hit_ratio", diagnosticLayout.text ratio),
    ("miss_latency_samples", toString s.missLatency.samples),
    ("miss_latency_mean", mean s.missLatency.mean)]

/-- The statistics in one line. -/
def diagnostic (s : CacheStats) : Except Fault String := do
  let fields ← s.diagnosticFields (optionalText diagnosticLayout.text)
  let parts := fields.map fun (name, value) => name ++ ": " ++ value ++ ", "
  return "CacheStats \x7b " ++ String.join parts ++ ".. \x7d"

/-- The statistics over several lines. -/
def diagnosticBlock (s : CacheStats) : Except Fault String := do
  let fields ← s.diagnosticFields <| optionalText fun x =>
    "\n        " ++ diagnosticLayout.text x ++ ",\n    "
  let parts := fields.map fun (name, value) => "    " ++ name ++ ": " ++ value ++ ",\n"
  return "CacheStats \x7b\n" ++ String.join parts ++ "    ..\n\x7d"

end CacheStats

end CacheSim
