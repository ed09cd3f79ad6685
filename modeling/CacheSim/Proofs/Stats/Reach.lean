import CacheSim.Proofs.Stats.Summary

/-!
# How far a histogram reaches

The width of the buckets doubles as long as a word covers them all, so there is
a first value that no histogram of a number of buckets can take (`reach`).  A
value below it is counted, and from it on the histogram grows until the greatest
value of its last bucket is no word any more (`Holds.sample_of_reach_le`).

* `growWhile_of_grown`: a loop of growing is as many steps as it takes, and its fuel
  is enough for them;
* `Holds.grown`: any number of steps up to the first width that is too great
  leaves the values where they belong;
* `exists_of_takeable`, `summarizes_of_ofValues?`: a list is counted if and only if its
  values lie below the reach and a word holds their number.
-/

namespace CacheSim.Histogram

variable {h g : Histogram} {n k i value : Nat} {values : List Nat}

/-- How often the width of `n` buckets can double before a word covers them no
longer. -/
def widest (n : Nat) : Nat :=
  (Word.max / n).log2

/-- The first value beyond the greatest range that `n` buckets can cover. -/
def reach (n : Nat) : Nat :=
  n * 2 ^ widest n

/-- A word covers `n` buckets as long as they double no more often than they can. -/
theorem covered_iff (hp : 0 < n) (hn : n < Word.bound) : n * 2 ^ k < Word.bound ↔ k ≤ widest n := by
  have hmax : n ≤ Word.max := Nat.le_sub_one_of_lt hn
  have hne : Word.max / n ≠ 0 := Nat.ne_of_gt (Nat.div_pos hmax hp)
  rw [widest, Nat.le_log2 hne, Nat.le_div_iff_mul_le hp, Nat.mul_comm, Word.max]
  omega

theorem reach_lt (hp : 0 < n) (hn : n < Word.bound) : reach n < Word.bound :=
  (covered_iff hp hn).mpr (Nat.le_refl _)

theorem two_pow_succ_lt (h2 : 2 ≤ n) (hn : n < Word.bound) (hk : k ≤ widest n) : 2 ^ (k + 1) < Word.bound := by
  have hcovered := (covered_iff (by omega) hn).mpr hk
  have hle : 2 * 2 ^ k ≤ n * 2 ^ k := Nat.mul_le_mul_right _ h2
  rw [Nat.pow_succ']
  omega

/-- A histogram has grown to the first width that is too great before its fuel is spent. -/
theorem widest_lt (h2 : 2 ≤ n) (hn : n < Word.bound) : widest n + 1 < doublings :=
  Nat.lt_succ_of_lt
    ((Nat.pow_lt_pow_iff_right (a := 2) (n := widest n + 1) (m := 64) (by decide)).mp
      (two_pow_succ_lt h2 hn (Nat.le_refl _)))

/-! ## Growing step by step -/

/-- The histogram after a number of steps of growing. -/
def grown : Nat → Histogram → Except Fault Histogram
  | 0, h => .ok h
  | i + 1, h => h.grow >>= grown i

/-- A loop takes as many steps as the histogram is too small. -/
theorem growWhile_add {tooSmall : Histogram → Except Fault Bool} (fuel : Nat) (hg : grown i h = .ok g)
    (hsmall : ∀ j < i, ∀ f, grown j h = .ok f → tooSmall f = .ok true) :
    growWhile tooSmall (fuel + i) h = growWhile tooSmall fuel g := by
  induction i generalizing h with
  | zero =>
    obtain rfl := Except.ok.inj hg
    rfl
  | succ i ih =>
    obtain ⟨f, hf, hg⟩ := Sim.bind_eq_ok.mp hg
    have hhere : tooSmall h = .ok true := hsmall 0 (Nat.succ_pos i) h rfl
    rw [← Nat.add_assoc, growWhile, hhere, Sim.ok_bind, if_pos rfl, hf, Sim.ok_bind]
    refine ih hg fun j hj e he => hsmall (j + 1) (Nat.succ_lt_succ hj) e ?_
    rw [grown, hf, Sim.ok_bind, he]

/-- A loop whose fuel is enough comes to the first histogram that may not be too small. -/
theorem growWhile_of_grown {tooSmall : Histogram → Except Fault Bool} (hi : i < doublings)
    (hg : grown i h = .ok g) (hsmall : ∀ j < i, ∀ f, grown j h = .ok f → tooSmall f = .ok true) :
    ∃ fuel, growWhile tooSmall doublings h = growWhile tooSmall (fuel + 1) g := by
  obtain ⟨fuel, hfuel⟩ := Nat.exists_eq_add_of_lt hi
  have hsplit : doublings = fuel + 1 + i := by omega
  exact ⟨fuel, hsplit ▸ growWhile_add (fuel + 1) hg hsmall⟩

/-- Any number of steps keeps the values, if a word holds the width after them. -/
theorem Holds.grown (hh : h.Holds n k values) (he : n % 2 = 0) (hlen : values.length < Word.bound)
    (hk : 2 ^ (k + i) < Word.bound) : ∃ g, Histogram.grown i h = .ok g ∧ g.Holds n (k + i) values := by
  induction i generalizing h k with
  | zero => exact ⟨h, rfl, hh⟩
  | succ i ih =>
    have hle : 2 ^ (k + 1) ≤ 2 ^ (k + (i + 1)) := Nat.pow_le_pow_right Nat.two_pos (by omega)
    obtain ⟨f, hf, hfh⟩ := hh.grow he hlen (Nat.lt_of_le_of_lt hle hk)
    rw [show k + (i + 1) = k + 1 + i by omega] at hk ⊢
    obtain ⟨g, hg, hgh⟩ := ih hfh hk
    exact ⟨g, by rw [Histogram.grown, hf, Sim.ok_bind, hg], hgh⟩

/-! ## Beyond the reach -/

/-- A word does not hold the range of buckets that are too wide. -/
theorem Holds.maxBucket_eq_error (hh : h.Holds n k values) (hp : 0 < n) (hn : n < Word.bound) (hk : widest n < k) :
    h.maxBucket = .error .mulOverflow := by
  have hlength : h.buckets.length = n := by rw [hh.buckets, length_tallies]
  have hmul : Word.mul h.bucketSize h.buckets.length = .error .mulOverflow := by
    rw [Word.mul_eq_error, hh.bucketSize, hlength, Nat.mul_comm]
    exact ⟨Nat.not_lt.mp (mt (covered_iff hp hn).mp (Nat.not_le.mpr hk)), rfl⟩
  rw [maxBucket, hmul, Sim.error_bind]

/-- From the reach on, every width that a word covers is too small, and the steps
of growing lead to the first one that it does not cover. -/
theorem Holds.exists_grown (hh : h.Holds n k values) (he : n % 2 = 0) (h2 : 2 ≤ n) (hn : n < Word.bound)
    (hk : k ≤ widest n) (hlen : values.length < Word.bound) (hv : reach n ≤ value) :
    ∃ g, Histogram.grown (widest n + 1 - k) h = .ok g ∧ g.maxBucket = .error .mulOverflow ∧
      ∀ j < widest n + 1 - k, ∀ f, Histogram.grown j h = .ok f → ∃ m, f.maxBucket = .ok m ∧ m < value := by
  have hpow : ∀ {j}, j ≤ widest n + 1 → 2 ^ j < Word.bound := fun hj =>
    Nat.lt_of_le_of_lt (Nat.pow_le_pow_right Nat.two_pos hj) (two_pow_succ_lt h2 hn (Nat.le_refl _))
  obtain ⟨g, hg, hgh⟩ := hh.grown (i := widest n + 1 - k) he hlen (hpow (by omega))
  refine ⟨g, hg, hgh.maxBucket_eq_error (by omega) hn (by omega), fun j hj f hf => ?_⟩
  obtain ⟨f', hf', hfh⟩ := hh.grown (i := j) he hlen (hpow (by omega))
  obtain rfl := Except.ok.inj (hf.symm.trans hf')
  have hcovered : n * 2 ^ (k + j) < Word.bound := (covered_iff (by omega) hn).mpr (by omega)
  have hle : n * 2 ^ (k + j) ≤ reach n :=
    Nat.mul_le_mul_left n (Nat.pow_le_pow_right Nat.two_pos (by omega))
  have hpos : 0 < n * 2 ^ (k + j) := Nat.mul_pos (by omega) (Nat.two_pow_pos _)
  exact ⟨_, hfh.maxBucket_eq_ok (by omega) hcovered, by omega⟩

/-- The loop of growing for a value from the reach on ends at the first width that
is too great. -/
theorem Holds.growTo_of_reach_le (hh : h.Holds n k values) (he : n % 2 = 0) (h2 : 2 ≤ n) (hn : n < Word.bound)
    (hk : k ≤ widest n) (hlen : values.length < Word.bound) (hv : reach n ≤ value) :
    h.growTo value = .error .mulOverflow := by
  obtain ⟨g, hg, hmax, hsmall⟩ := hh.exists_grown he h2 hn hk hlen hv
  have hwidest := widest_lt h2 hn
  have hwhile : ∀ j < widest n + 1 - k, ∀ f, Histogram.grown j h = .ok f →
      (do return decide ((← f.maxBucket) < value) : Except Fault Bool) = .ok true := fun j hj f hf => by
    obtain ⟨m, hm, hlt⟩ := hsmall j hj f hf
    rw [hm, Sim.ok_bind, decide_eq_true hlt]
    rfl
  obtain ⟨fuel, hfuel⟩ := growWhile_of_grown (by omega) hg hwhile
  rw [Histogram.growTo, hfuel, growWhile, hmax]
  rfl

theorem Holds.sample_of_reach_le (hh : h.Holds n k values) (he : n % 2 = 0) (h2 : 2 ≤ n) (hn : n < Word.bound)
    (hk : k ≤ widest n) (hlen : values.length < Word.bound) (hv : reach n ≤ value) :
    h.sample value = .error .mulOverflow := by
  rw [Histogram.sample, hh.growTo_of_reach_le he h2 hn hk hlen hv, Sim.error_bind]

/-! ## Lists -/

/-- The histogram of a list of values. -/
def ofValues? (n : Nat) (values : List Nat) : Except Fault Histogram := do
  let h ← ofBuckets? n
  h.sampleAll values

theorem ofValues?_eq (he : n % 2 = 0) (h2 : 2 ≤ n) (values : List Nat) :
    ofValues? n values = (empty n).sampleAll values := by
  rw [ofValues?, ofBuckets?, if_pos ⟨h2, he⟩, Sim.ok_bind]

/-- The width of a summary is at most the widest one. -/
theorem Summarizes.holds (hh : h.Summarizes n values) (hp : 0 < n) (hn : n < Word.bound)
    (hv : ∀ v ∈ values, v < reach n) : ∃ k, h.Holds n k values ∧ k ≤ widest n ∧ n * 2 ^ k < Word.bound := by
  obtain ⟨k, hk, hleast⟩ := hh
  have hle := hleast _ hv
  exact ⟨k, hk, hle, (covered_iff hp hn).mpr hle⟩

theorem exists_of_takeable (he : n % 2 = 0) (h2 : 2 ≤ n) (hn : n < Word.bound) (hlen : values.length < Word.bound)
    (hv : ∀ v ∈ values, v < reach n) : ∃ h, ofValues? n values = .ok h ∧ h.Summarizes n values := by
  rw [ofValues?_eq he h2]
  exact sampleAll_summarizes he (by omega) (reach_lt (by omega) hn) hlen hv

/-- A word holds the number of samples after one more. -/
theorem samples_lt_of_sample (hg : h.sample value = .ok g) : h.samples + 1 < Word.bound := by
  obtain ⟨f, hf, hg⟩ := Sim.bind_eq_ok.mp hg
  obtain ⟨buckets, -, hg⟩ := Sim.bind_eq_ok.mp hg
  obtain ⟨samples, hadd, -⟩ := Sim.bind_eq_ok.mp hg
  rw [← (sameTotals_of_growWhile hf).samples]
  exact (Word.add_eq_ok.mp hadd).1

/-- A histogram whose values lie below the reach takes no value from there on, and no
more values than a word can count. -/
theorem Summarizes.takeable_of_sample (hs : h.Summarizes n values) (he : n % 2 = 0) (h2 : 2 ≤ n)
    (hn : n < Word.bound) (hv : ∀ v ∈ values, v < reach n) (hg : h.sample value = .ok g) :
    values.length + 1 < Word.bound ∧ value < reach n := by
  obtain ⟨k, hk, hwide, -⟩ := hs.holds (by omega) hn hv
  have hlt : values.length + 1 < Word.bound := hk.samples ▸ samples_lt_of_sample hg
  refine ⟨hlt, Nat.lt_of_not_le fun hle => ?_⟩
  rw [hk.sample_of_reach_le he h2 hn hwide (by omega) hle] at hg
  cases hg

/-- A list that was counted lies below the reach, a word holds its length, and the
histogram is its summary. -/
theorem summarizes_of_ofValues? (he : n % 2 = 0) (h2 : 2 ≤ n) (hn : n < Word.bound)
    (hh : ofValues? n values = .ok h) :
    values.length < Word.bound ∧ (∀ v ∈ values, v < reach n) ∧ h.Summarizes n values := by
  rw [ofValues?_eq he h2] at hh
  induction values using List.reverseRecOn generalizing h with
  | nil =>
    obtain rfl := Except.ok.inj hh
    exact ⟨by decide, by simp, 0, holds_empty n, fun _ _ => Nat.zero_le _⟩
  | append_singleton values value ih =>
    rw [sampleAll_concat] at hh
    obtain ⟨g, hg, hh⟩ := Sim.bind_eq_ok.mp hh
    obtain ⟨-, hvs, hs⟩ := ih hg
    obtain ⟨hlt, hv⟩ := hs.takeable_of_sample he h2 hn hvs hh
    obtain ⟨h', hh', hs'⟩ := hs.sample he (by omega) (reach_lt (by omega) hn) hlt hvs hv
    obtain rfl := Except.ok.inj (hh.symm.trans hh')
    refine ⟨by rwa [List.length_append, List.length_singleton], fun v hm => ?_, hs'⟩
    rcases List.mem_append.mp hm with hm | hm
    · exact hvs v hm
    · exact List.mem_singleton.mp hm ▸ hv

end CacheSim.Histogram
