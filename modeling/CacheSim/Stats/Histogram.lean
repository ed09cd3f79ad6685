import CacheSim.Word

/-!
# Growing histograms

A histogram has a fixed number of buckets of one width.  A value beyond the
last bucket makes the histogram merge its buckets in pairs, which doubles the
width, until the value falls into a bucket.
-/

namespace CacheSim

/-- Counts of values in buckets of one width, with the sum and the extremes. -/
structure Histogram where
  /-- Bucket `i` counts the values from `i * bucketSize` to the next multiple. -/
  buckets : List Nat
  bucketSize : Nat
  samples : Nat
  /-- The sum of the values, cut off at the greatest word. -/
  sum : Nat
  min : Option Nat
  max : Option Nat
  deriving DecidableEq, Inhabited

namespace Histogram

/-- A histogram without values, whose buckets are one unit wide. -/
def empty (buckets : Nat) : Histogram :=
  { buckets := List.replicate buckets 0, bucketSize := 1, samples := 0, sum := 0
    min := none, max := none }

/-- A histogram of a number of buckets, which must be even and not zero. -/
def ofBuckets? (buckets : Nat) : Except Fault Histogram :=
  if 2 ≤ buckets ∧ buckets % 2 = 0 then .ok (empty buckets) else .error (.oddBuckets buckets)

/-- The greatest value that falls into a bucket. -/
def maxBucket (h : Histogram) : Except Fault Nat := do
  let covered ← Word.mul h.bucketSize h.buckets.length
  Word.sub covered 1

/-- The count of a bucket. -/
def count (buckets : List Nat) (i : Nat) : Except Fault Nat :=
  match buckets[i]? with
  | some n => .ok n
  | none => .error (.indexOutOfBounds buckets.length i)

/-- Puts the sum of buckets `2 * i` and `2 * i + 1`, as they are by now, into
bucket `i`, or zero if there are no such buckets. -/
def fold (buckets : List Nat) (i : Nat) : Except Fault (List Nat) := do
  let n ←
    if 2 * i < buckets.length then do
      let low ← count buckets (2 * i)
      let high ← count buckets (2 * i + 1)
      Word.add low high
    else pure 0
  return buckets.set i n

/-- Merges the buckets in pairs, in place and from the first one on, and doubles
their width. -/
def grow (h : Histogram) : Except Fault Histogram := do
  let buckets ← (List.range h.buckets.length).foldlM fold h.buckets
  let bucketSize ← Word.mul h.bucketSize 2
  return { h with buckets, bucketSize }

/-- How often a width can double: no word is doubled more often, and so many
merges leave all counts in the first bucket. -/
def doublings : Nat := 65

/-- Grows a histogram as long as `tooSmall` says so. -/
def growWhile (tooSmall : Histogram → Except Fault Bool) :
    Nat → Histogram → Except Fault Histogram
  | 0, _ => .error .endlessGrowth
  | fuel + 1, h => do
    if ← tooSmall h then
      growWhile tooSmall fuel (← h.grow)
    else return h

/-- Grows until a value falls into a bucket. -/
def growTo (h : Histogram) (value : Nat) : Except Fault Histogram :=
  growWhile (fun h => do return decide ((← h.maxBucket) < value)) doublings h

/-- Grows until the buckets are at least `bucketSize` wide. -/
def widen (h : Histogram) (bucketSize : Nat) : Except Fault Histogram :=
  growWhile (fun h => .ok (decide (h.bucketSize < bucketSize))) doublings h

/-- Counts one more value in bucket `i`. -/
def bump (buckets : List Nat) (i : Nat) : Except Fault (List Nat) :=
  match buckets[i]? with
  | some n => do return buckets.set i (← Word.add n 1)
  | none => .error (.indexOutOfBounds buckets.length i)

/-- Adds a value. -/
def sample (h : Histogram) (value : Nat) : Except Fault Histogram := do
  let h ← h.growTo value
  let buckets ← bump h.buckets (value / h.bucketSize)
  let samples ← Word.add h.samples 1
  return { h with
    buckets, samples
    sum := Word.saturatingAdd h.sum value
    min := some (h.min.elim value (Nat.min · value))
    max := some (h.max.elim value (Nat.max · value)) }

/-- Adds values one after another. -/
def sampleAll (h : Histogram) (values : List Nat) : Except Fault Histogram :=
  values.foldlM sample h

/-- The sums of the counts at equal places. -/
def addCounts : List Nat → List Nat → Except Fault (List Nat)
  | a :: as, b :: bs => do
    let s ← Word.add a b
    let sums ← addCounts as bs
    return s :: sums
  | as, _ => .ok as

/-- The one of two optional values that `pick` prefers. -/
def either (pick : Nat → Nat → Nat) : Option Nat → Option Nat → Option Nat
  | some a, some b => some (pick a b)
  | a, none => a
  | none, b => b

/-- Adds all values of another histogram, after both were brought to the
greater width. -/
def merge (h other : Histogram) : Except Fault Histogram := do
  unless h.buckets.length = other.buckets.length do
    throw (.bucketMismatch h.buckets.length other.buckets.length)
  let h ← h.widen other.bucketSize
  let other ← other.widen h.bucketSize
  let buckets ← addCounts h.buckets other.buckets
  let samples ← Word.add h.samples other.samples
  return { h with
    buckets, samples
    sum := Word.saturatingAdd h.sum other.sum
    min := either Nat.min h.min other.min
    max := either Nat.max h.max other.max }

/-- The mean of the values, if there are any. -/
def mean (h : Histogram) : Option Float :=
  if h.samples = 0 then none
  else some ((UInt64.ofNat h.sum).toFloat / (UInt64.ofNat h.samples).toFloat)

end Histogram

end CacheSim
