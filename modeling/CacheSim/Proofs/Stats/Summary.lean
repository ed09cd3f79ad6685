import CacheSim.Proofs.Stats.Histogram
import Mathlib.Data.List.Induction
import Mathlib.Data.List.MinMax

/-!
# What a histogram tells of its values

A histogram is determined by the values that it took, whatever their order: every
bucket counts the values that fall into it, and the buckets are as narrow as all
values allow (`Summarizes`).  Growing leaves the values where they belong
(`Holds.grow`), since two neighbours share their values with the bucket of twice
their width (`countP_div_double`), and a histogram grows only as far as the next
value needs (`Holds.growTo`).
-/

namespace CacheSim.Histogram

variable {h g : Histogram} {n k value : Nat} {values : List Nat}

/-- How many values fall into each of `n` buckets of a width. -/
def tallies (n width : Nat) (values : List Nat) : List Nat :=
  (List.range n).map fun i => values.countP (· / width = i)

/-- The histogram counts values in `n` buckets of width `2 ^ k`, and none of them
lies beyond the last bucket. -/
structure Holds (h : Histogram) (n k : Nat) (values : List Nat) : Prop where
  bucketSize : h.bucketSize = 2 ^ k
  within : ∀ v ∈ values, v < n * 2 ^ k
  buckets : h.buckets = tallies n (2 ^ k) values
  samples : h.samples = values.length
  sum : h.sum = Nat.min values.sum Word.max
  min : h.min = values.min?
  max : h.max = values.max?

/-- The histogram counts values in `n` buckets that are as narrow as a power of
two can be without a value beyond the last bucket. -/
def Summarizes (h : Histogram) (n : Nat) (values : List Nat) : Prop :=
  ∃ k, h.Holds n k values ∧ ∀ j, (∀ v ∈ values, v < n * 2 ^ j) → k ≤ j

theorem length_tallies (n width : Nat) (values : List Nat) : (tallies n width values).length = n := by
  rw [tallies, List.length_map, List.length_range]

theorem holds_empty (n : Nat) : (empty n).Holds n 0 [] := by
  refine ⟨rfl, by simp, ?_, rfl, rfl, rfl, rfl⟩
  simp [empty, tallies, List.map_const']

/-! ## Growing -/

/-- A bucket has the values of the two buckets of half its width. -/
theorem countP_div_double (width i : Nat) (values : List Nat) :
    values.countP (· / (width * 2) = i) =
      values.countP (· / width = 2 * i) + values.countP (· / width = 2 * i + 1) := by
  induction values with
  | nil => rfl
  | cons v values ih =>
    have hhalf : v / (width * 2) = v / width / 2 := (Nat.div_div_eq_div_mul v width 2).symm
    simp only [List.countP_cons, ih, hhalf, decide_eq_true_eq]
    generalize v / width = q
    have hcases : q / 2 = i ↔ q = 2 * i ∨ q = 2 * i + 1 := by omega
    by_cases h₀ : q = 2 * i
    · rw [if_pos (hcases.mpr (.inl h₀)), if_pos h₀, if_neg (by omega)]
      omega
    · by_cases h₁ : q = 2 * i + 1
      · rw [if_pos (hcases.mpr (.inr h₁)), if_neg h₀, if_pos h₁]
        omega
      · rw [if_neg (by omega), if_neg h₀, if_neg h₁]
        omega

theorem pairSums_map_range' (length : Nat) {f : Nat → Nat} (hf : ∀ i, f (2 * i) + f (2 * i + 1) < Word.bound)
    (m : Nat) : ∀ a, pairSums length ((List.range' (2 * a) (2 * m)).map f) =
      .ok ((List.range' a m).map fun i => f (2 * i) + f (2 * i + 1)) := by
  induction m with
  | zero => intro a; rfl
  | succ m ih =>
    intro a
    have hadd : Word.add (f (2 * a)) (f (2 * a + 1)) = .ok (f (2 * a) + f (2 * a + 1)) :=
      Word.add_eq_ok.mpr ⟨hf a, rfl⟩
    have hrest := ih (a + 1)
    rw [Nat.mul_succ 2 m, List.range'_succ, List.range'_succ, List.range'_succ, List.map_cons, List.map_cons, pairSums,
      show 2 * a + 1 + 1 = 2 * (a + 1) by omega, hrest, hadd]
    rfl

/-- The counts of an even number of buckets, merged in pairs, are the counts of
buckets of twice the width; those behind them are empty. -/
theorem pairSums_tallies {width : Nat} (he : n % 2 = 0) (hlen : values.length < Word.bound)
    (hv : ∀ v ∈ values, v < n * width) :
    ∃ sums, pairSums n (tallies n width values) = .ok sums ∧
      sums ++ List.replicate (n - sums.length) 0 = tallies n (width * 2) values := by
  obtain ⟨m, rfl⟩ : ∃ m, n = 2 * m := ⟨n / 2, by omega⟩
  have hf : ∀ i, values.countP (· / width = 2 * i) + values.countP (· / width = 2 * i + 1) < Word.bound := by
    intro i
    rw [← countP_div_double]
    exact Nat.lt_of_le_of_lt List.countP_le_length hlen
  have hsums := pairSums_map_range' (2 * m) (f := fun i => values.countP (· / width = i)) hf m 0
  refine ⟨(List.range m).map fun i => values.countP (· / width = 2 * i) + values.countP (· / width = 2 * i + 1), ?_, ?_⟩
  · rw [tallies, List.range_eq_range', List.range_eq_range']
    exact hsums
  · have hbehind : ∀ i, values.countP (· / (width * 2) = m + i) = 0 := by
      intro i
      refine List.countP_eq_zero.mpr fun v hm => ?_
      have hlt : v / (width * 2) < m := by
        refine Nat.div_lt_of_lt_mul ?_
        have hcomm : width * 2 * m = 2 * m * width := by
          rw [Nat.mul_assoc, Nat.mul_comm]
        rw [hcomm]
        exact hv v hm
      simp only [decide_eq_true_eq]
      omega
    have hfront : (List.range m).map (fun i => values.countP (· / width = 2 * i) +
        values.countP (· / width = 2 * i + 1)) = (List.range m).map fun i => values.countP (· / (width * 2) = i) :=
      List.map_congr_left fun i _ => (countP_div_double width i values).symm
    have hback : (List.range m).map ((fun i => values.countP (· / (width * 2) = i)) ∘ (m + ·)) =
        List.replicate m 0 := by
      refine List.eq_replicate_iff.mpr ⟨by simp, fun count hcount => ?_⟩
      obtain ⟨i, -, rfl⟩ := List.mem_map.mp hcount
      exact hbehind i
    rw [hfront, tallies, Nat.two_mul, List.range_add, List.map_append, List.map_map, hback, List.length_map,
      List.length_range, Nat.add_sub_cancel]

/-- Growing keeps the values. -/
theorem Holds.grow (hh : h.Holds n k values) (he : n % 2 = 0) (hlen : values.length < Word.bound)
    (hk : 2 ^ (k + 1) < Word.bound) : ∃ g, h.grow = .ok g ∧ g.Holds n (k + 1) values := by
  obtain ⟨sums, hsums, hall⟩ := pairSums_tallies he hlen hh.within
  have hn : h.buckets.length = n := by rw [hh.buckets, length_tallies]
  have hmul : Word.mul h.bucketSize 2 = .ok (2 ^ (k + 1)) := by
    refine Word.mul_eq_ok.mpr ⟨?_, ?_⟩ <;> rw [hh.bucketSize, ← Nat.pow_succ]
    exact hk
  refine ⟨{ h with buckets := sums ++ List.replicate (n - sums.length) 0, bucketSize := 2 ^ (k + 1) }, ?_, ?_⟩
  · rw [Histogram.grow_eq, hn, hmul, hh.buckets, hsums]
    rfl
  · refine ⟨rfl, fun v hv => ?_, ?_, hh.samples, hh.sum, hh.min, hh.max⟩
    · have hle : n * 2 ^ k ≤ n * 2 ^ (k + 1) :=
        Nat.mul_le_mul_left n (Nat.pow_le_pow_right Nat.two_pos (Nat.le_succ k))
      exact Nat.lt_of_lt_of_le (hh.within v hv) hle
    · exact hall

theorem Holds.maxBucket_eq_ok (hh : h.Holds n k values) (hn : 0 < n) (hk : n * 2 ^ k < Word.bound) :
    h.maxBucket = .ok (n * 2 ^ k - 1) := by
  have hlength : h.buckets.length = n := by rw [hh.buckets, length_tallies]
  have hmul : Word.mul h.bucketSize h.buckets.length = .ok (n * 2 ^ k) := by
    refine Word.mul_eq_ok.mpr ⟨?_, ?_⟩ <;> rw [hh.bucketSize, hlength, Nat.mul_comm]
    exact hk
  have hpos : 1 ≤ n * 2 ^ k := Nat.mul_pos hn (Nat.two_pow_pos k)
  rw [maxBucket, hmul, Sim.ok_bind, Word.sub, if_pos hpos]

/-- A histogram grows until a value falls into a bucket, and no further. -/
theorem Holds.growWhile_eq_ok {K : Nat} (he : n % 2 = 0) (hn : 0 < n) (hK : n * 2 ^ K < Word.bound)
    (hlen : values.length < Word.bound) (hv : value < n * 2 ^ K) :
    ∀ (fuel : Nat) {h : Histogram} {k : Nat}, h.Holds n k values → k ≤ K → K ≤ k + fuel →
      ∃ j g, growWhile (fun h => do return decide ((← h.maxBucket) < value)) (fuel + 1) h = .ok g ∧
        g.Holds n j values ∧ k ≤ j ∧ j ≤ K ∧ value < n * 2 ^ j ∧ ∀ i, k ≤ i → value < n * 2 ^ i → j ≤ i
  | fuel, h, k, hh, hkK, hfuel => by
    have hmono : ∀ {i j}, i ≤ j → n * 2 ^ i ≤ n * 2 ^ j := fun hij =>
      Nat.mul_le_mul_left n (Nat.pow_le_pow_right Nat.two_pos hij)
    have hpos : 1 ≤ n * 2 ^ k := Nat.mul_pos hn (Nat.two_pow_pos k)
    have hmax := hh.maxBucket_eq_ok hn (Nat.lt_of_le_of_lt (hmono hkK) hK)
    by_cases hsmall : n * 2 ^ k - 1 < value
    · have hlt : k < K := by
        refine Nat.lt_of_not_le fun hle => ?_
        have := hmono hle
        omega
      obtain ⟨fuel, rfl⟩ : ∃ m, fuel = m + 1 := ⟨fuel - 1, by omega⟩
      have hk : 2 ^ (k + 1) < Word.bound := by
        refine Nat.lt_of_le_of_lt ?_ hK
        exact Nat.le_trans (Nat.le_mul_of_pos_left _ hn) (hmono hlt)
      obtain ⟨g, hg, hgh⟩ := hh.grow he hlen hk
      obtain ⟨j, f, hf, hfh, hkj, hjK, hfv, hleast⟩ :=
        growWhile_eq_ok he hn hK hlen hv fuel hgh hlt (by omega)
      refine ⟨j, f, ?_, hfh, by omega, hjK, hfv, fun i hi hvi => hleast i ?_ hvi⟩
      · rw [growWhile]
        simp only [hmax, Sim.ok_bind, pure, Except.pure, hsmall, decide_true, if_true, hg]
        exact hf
      · refine Nat.lt_of_le_of_ne hi ?_
        rintro rfl
        omega
    · refine ⟨k, h, ?_, hh, Nat.le_refl k, hkK, by omega, fun i hi _ => hi⟩
      rw [growWhile]
      simp [hmax, hsmall, pure, Except.pure]

/-- As many doublings as a histogram is allowed are enough for every value that a
word-sized width can cover. -/
theorem Holds.growTo {K : Nat} (hh : h.Holds n k values) (he : n % 2 = 0) (hn : 0 < n)
    (hK : n * 2 ^ K < Word.bound) (hkK : k ≤ K) (hlen : values.length < Word.bound) (hv : value < n * 2 ^ K) :
    ∃ j g, h.growTo value = .ok g ∧ g.Holds n j values ∧ k ≤ j ∧ j ≤ K ∧ value < n * 2 ^ j ∧
      ∀ i, k ≤ i → value < n * 2 ^ i → j ≤ i := by
  have hK64 : K < 64 := by
    refine (Nat.pow_lt_pow_iff_right (a := 2) (by decide)).mp ?_
    exact Nat.lt_of_le_of_lt (Nat.le_mul_of_pos_left _ hn) hK
  exact growWhile_eq_ok he hn hK hlen hv 64 hh hkK (by omega)

/-! ## Samples -/

theorem min?_concat (values : List Nat) (value : Nat) :
    (values ++ [value]).min? = some (values.min?.elim value (Nat.min · value)) := by
  cases values with
  | nil => rfl
  | cons v values =>
    rw [List.cons_append, List.min?_cons', List.foldl_append, List.min?_cons']
    rfl

theorem max?_concat (values : List Nat) (value : Nat) :
    (values ++ [value]).max? = some (values.max?.elim value (Nat.max · value)) := by
  cases values with
  | nil => rfl
  | cons v values =>
    rw [List.cons_append, List.max?_cons', List.foldl_append, List.max?_cons']
    rfl

/-- One value more is one more in its bucket. -/
theorem tallies_concat {width : Nat} (n : Nat) (values : List Nat) (value : Nat) :
    tallies n width (values ++ [value]) =
      (tallies n width values).set (value / width) (values.countP (· / width = value / width) + 1) := by
  refine List.ext_getElem (by simp [tallies]) fun i hi _ => ?_
  rw [List.getElem_set]
  by_cases hvi : value / width = i
  · subst hvi
    simp [tallies, List.countP_append]
  · simp [tallies, List.countP_append, hvi]

/-- The values are one more after a sample, in buckets that grew no further than it
needs. -/
theorem Holds.sample {K : Nat} (hh : h.Holds n k values) (he : n % 2 = 0) (hn : 0 < n)
    (hK : n * 2 ^ K < Word.bound) (hkK : k ≤ K) (hlen : values.length + 1 < Word.bound) (hv : value < n * 2 ^ K) :
    ∃ j g, h.sample value = .ok g ∧ g.Holds n j (values ++ [value]) ∧ j ≤ K ∧
      ∀ i, k ≤ i → value < n * 2 ^ i → j ≤ i := by
  obtain ⟨j, g, hg, hgh, hkj, hjK, hvj, hleast⟩ := hh.growTo he hn hK hkK (by omega) hv
  have hi : value / g.bucketSize < n := by
    rw [hgh.bucketSize, Nat.div_lt_iff_lt_mul (Nat.two_pow_pos j)]
    exact hvj
  have hget : g.buckets[value / g.bucketSize]? =
      some (values.countP (· / 2 ^ j = value / 2 ^ j)) := by
    simp only [hgh.buckets, hgh.bucketSize, tallies, List.getElem?_map] at hi ⊢
    rw [List.getElem?_range hi]
    rfl
  have hcount : values.countP (· / 2 ^ j = value / 2 ^ j) ≤ values.length := List.countP_le_length
  have hbump : Word.add (values.countP (· / 2 ^ j = value / 2 ^ j)) 1 =
      .ok (values.countP (· / 2 ^ j = value / 2 ^ j) + 1) := Word.add_eq_ok.mpr ⟨by omega, rfl⟩
  have hsamples : Word.add g.samples 1 = .ok (values.length + 1) := by
    rw [hgh.samples]
    exact Word.add_eq_ok.mpr ⟨hlen, rfl⟩
  refine ⟨j, _, by simp [Histogram.sample, hg, bump, hget, hbump, hsamples]; rfl, ?_, hjK, hleast⟩
  refine ⟨hgh.bucketSize, fun v hm => ?_, ?_, ?_, ?_, ?_, ?_⟩
  · rcases List.mem_append.mp hm with hm | hm
    · exact hgh.within v hm
    · obtain rfl := List.mem_singleton.mp hm
      exact hvj
  · rw [tallies_concat, ← hgh.buckets, ← hgh.bucketSize]
  · rw [List.length_append, List.length_singleton]
  · rw [List.sum_append, List.sum_singleton, hgh.sum]
    show Min.min (Min.min values.sum Word.max + value) Word.max = Min.min (values.sum + value) Word.max
    omega
  · rw [min?_concat, ← hgh.min]
  · rw [max?_concat, ← hgh.max]

/-- A histogram that is as narrow as its values allow is so after one value more. -/
theorem Summarizes.sample {K : Nat} (hh : h.Summarizes n values) (he : n % 2 = 0) (hn : 0 < n)
    (hK : n * 2 ^ K < Word.bound) (hlen : values.length + 1 < Word.bound) (hvs : ∀ v ∈ values, v < n * 2 ^ K)
    (hv : value < n * 2 ^ K) : ∃ g, h.sample value = .ok g ∧ g.Summarizes n (values ++ [value]) := by
  obtain ⟨k, hh, hleast⟩ := hh
  obtain ⟨j, g, hg, hgh, -, hj⟩ := hh.sample he hn hK (hleast K hvs) hlen hv
  refine ⟨g, hg, j, hgh, fun i hi => hj i (hleast i fun v hm => ?_) ?_⟩
  · exact hi v (List.mem_append_left _ hm)
  · exact hi value (List.mem_append_right _ (List.mem_singleton.mpr rfl))

/-! ## The summary of a list -/

/-- Every value falls into one bucket. -/
theorem sum_tallies {width : Nat} (hw : 0 < width) (hv : ∀ v ∈ values, v < n * width) :
    (tallies n width values).sum = values.length := by
  induction values using List.reverseRecOn with
  | nil => simp [tallies]
  | append_singleton values value ih =>
    have hi : value / width < n := by
      rw [Nat.div_lt_iff_lt_mul hw]
      exact hv value (List.mem_append_right _ (List.mem_singleton.mpr rfl))
    have hget : (tallies n width values)[value / width]? = some (values.countP (· / width = value / width)) := by
      rw [tallies, List.getElem?_map, List.getElem?_range hi]
      rfl
    rw [tallies_concat, sum_set _ _ _ hget, ih fun v hm => hv v (List.mem_append_left _ hm), List.length_append,
      List.length_singleton]

theorem Summarizes.sum_buckets (hh : h.Summarizes n values) : h.buckets.sum = h.samples := by
  obtain ⟨k, hh, -⟩ := hh
  rw [hh.buckets, hh.samples, sum_tallies (Nat.two_pow_pos k) hh.within]

theorem min?_perm {others : List Nat} (hp : others.Perm values) : others.min? = values.min? := by
  cases hm : values.min? with
  | none =>
    obtain rfl := List.min?_eq_none_iff.mp hm
    rw [hp.eq_nil]
    rfl
  | some m =>
    obtain ⟨hmem, hle⟩ := List.min?_eq_some_iff.mp hm
    exact List.min?_eq_some_iff.mpr ⟨hp.mem_iff.mpr hmem, fun b hb => hle b (hp.mem_iff.mp hb)⟩

theorem max?_perm {others : List Nat} (hp : others.Perm values) : others.max? = values.max? := by
  cases hm : values.max? with
  | none =>
    obtain rfl := List.max?_eq_none_iff.mp hm
    rw [hp.eq_nil]
    rfl
  | some m =>
    obtain ⟨hmem, hle⟩ := List.max?_eq_some_iff.mp hm
    exact List.max?_eq_some_iff.mpr ⟨hp.mem_iff.mpr hmem, fun b hb => hle b (hp.mem_iff.mp hb)⟩

/-- The values determine their summary, and their order does not matter. -/
theorem Summarizes.unique {others : List Nat} (hh : h.Summarizes n values) (hg : g.Summarizes n others)
    (hp : others.Perm values) : g = h := by
  obtain ⟨k, hh, hk⟩ := hh
  obtain ⟨j, hg, hj⟩ := hg
  obtain rfl : j = k := by
    refine Nat.le_antisymm (hj k fun v hv => ?_) (hk j fun v hv => ?_)
    · exact hh.within v (hp.mem_iff.mp hv)
    · exact hg.within v (hp.mem_iff.mpr hv)
  have hbuckets : g.buckets = h.buckets := by
    rw [hg.buckets, hh.buckets]
    exact List.map_congr_left fun i _ => hp.countP_eq _
  obtain ⟨_, _, _, _, _, _⟩ := h
  obtain ⟨_, _, _, _, _, _⟩ := g
  simp only [mk.injEq]
  refine ⟨hbuckets, hg.bucketSize.trans hh.bucketSize.symm, ?_, ?_, ?_, ?_⟩
  · exact hg.samples.trans (hp.length_eq.trans hh.samples.symm)
  · refine hg.sum.trans (Eq.trans ?_ hh.sum.symm)
    rw [hp.sum_nat]
  · exact hg.min.trans ((min?_perm hp).trans hh.min.symm)
  · exact hg.max.trans ((max?_perm hp).trans hh.max.symm)

theorem sampleAll_summarizes {K : Nat} (he : n % 2 = 0) (hn : 0 < n) (hK : n * 2 ^ K < Word.bound)
    (hlen : values.length < Word.bound) (hv : ∀ v ∈ values, v < n * 2 ^ K) :
    ∃ h, (empty n).sampleAll values = .ok h ∧ h.Summarizes n values := by
  induction values using List.reverseRecOn with
  | nil => exact ⟨empty n, rfl, 0, holds_empty n, fun j _ => Nat.zero_le j⟩
  | append_singleton values value ih =>
    rw [List.length_append, List.length_singleton] at hlen
    have hvs : ∀ v ∈ values, v < n * 2 ^ K := fun v hm => hv v (List.mem_append_left _ hm)
    obtain ⟨h, hh, hs⟩ := ih (by omega) hvs
    obtain ⟨g, hg, hgs⟩ := hs.sample he hn hK hlen hvs
      (hv value (List.mem_append_right _ (List.mem_singleton.mpr rfl)))
    exact ⟨g, by rw [sampleAll_concat, hh, Sim.ok_bind, hg], hgs⟩

/-- Whatever values a new histogram takes below the greatest range that its buckets
can cover, it takes all of them and is the summary of them: the width of its buckets
is the least power of two that covers the values, bucket `i` counts those between `i`
and `i + 1` widths, and number, sum and extremes are those of the list.  The buckets
add up to the number of values, and in any other order the values give the same. -/
theorem sampleAll_canonical {K : Nat} (he : n % 2 = 0) (hn : 2 ≤ n) (hK : n * 2 ^ K < Word.bound)
    (hlen : values.length < Word.bound) (hv : ∀ v ∈ values, v < n * 2 ^ K) :
    ∃ h, (ofBuckets? n >>= fun g => g.sampleAll values) = .ok h ∧ h.Summarizes n values ∧
      h.buckets.sum = h.samples ∧
      ∀ others : List Nat, others.Perm values → (ofBuckets? n >>= fun g => g.sampleAll others) = .ok h := by
  have hnew : ofBuckets? n = .ok (empty n) := if_pos ⟨hn, he⟩
  have hpos : 0 < n := by omega
  rw [hnew]
  obtain ⟨h, hh, hs⟩ := sampleAll_summarizes he hpos hK hlen hv
  refine ⟨h, hh, hs, hs.sum_buckets, fun others hp => ?_⟩
  have hothers : others.length < Word.bound := hp.length_eq ▸ hlen
  obtain ⟨g, hg, hgs⟩ := sampleAll_summarizes he hpos hK hothers fun v hm => hv v (hp.mem_iff.mp hm)
  rw [← hs.unique hgs hp]
  exact hg

/-- The theorem at a value that needs the greatest range of six buckets. -/
theorem sampleAll_canonical_of_wide :
    ∃ h, (ofBuckets? 6 >>= fun g => g.sampleAll [5, 2 ^ 63, 7, 5]) = .ok h ∧ h.Summarizes 6 [5, 2 ^ 63, 7, 5] ∧
      h.buckets.sum = h.samples ∧
      ∀ others : List Nat, others.Perm [5, 2 ^ 63, 7, 5] →
        (ofBuckets? 6 >>= fun g => g.sampleAll others) = .ok h :=
  sampleAll_canonical (K := 61) (by decide) (by decide) (by decide) (by decide) (by decide)

end CacheSim.Histogram
