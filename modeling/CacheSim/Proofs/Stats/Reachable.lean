import CacheSim.Proofs.Stats.Merge

/-!
# What a histogram can take

However a histogram was made by samples and merges, it counts the values of some
list (`Reachable.exists_values`).  So its width is a power of two with which a word
covers all buckets, and whether it takes one more value depends on nothing but the
reach of its number of buckets: `Reachable.takes_below_reach`.
-/

namespace CacheSim.Histogram

variable {h g : Histogram} {n value : Nat} {values : List Nat}

/-- A histogram made from new ones by samples and merges, as many buckets as a word
can number. -/
inductive Reachable : Nat → Histogram → Prop
  | new {n : Nat} {h : Histogram} : n < Word.bound → ofBuckets? n = .ok h → Reachable n h
  | sample {n value : Nat} {h g : Histogram} : Reachable n h → h.sample value = .ok g → Reachable n g
  | merge {n m : Nat} {h g f : Histogram} : Reachable n h → Reachable m g → h.merge g = .ok f → Reachable n f

/-- The histogram covers `n` buckets of a power of two within a word. -/
structure Covers (h : Histogram) (n : Nat) : Prop where
  length : h.buckets.length = n
  width : ∃ k, h.bucketSize = 2 ^ k
  covered : h.bucketSize * n < Word.bound
  maxBucket : h.maxBucket = .ok (h.bucketSize * n - 1)

/-- The histogram of `n` buckets takes a value if it lies below a limit, and stops at
the greatest value of its last bucket otherwise. -/
structure TakesBelow (h : Histogram) (n limit value : Nat) : Prop where
  /-- The loop of growing ends. -/
  ends : h.growTo value ≠ .error .endlessGrowth
  refuses : h.sample value = .error .mulOverflow ↔ limit ≤ value
  /-- The histogram grows until the greatest value of its last bucket is no word. -/
  grows : limit ≤ value → ∃ i g, grown i h = .ok g ∧ g.maxBucket = .error .mulOverflow ∧
    ∀ j < i, ∀ f, grown j h = .ok f → ∃ m, f.maxBucket = .ok m ∧ m < value
  takes : value < limit → ∃ wide g, h.growTo value = .ok wide ∧ value / wide.bucketSize < n ∧
    h.sample value = .ok g

theorem ofBuckets?_eq_ok (h : ofBuckets? n = .ok g) : n % 2 = 0 ∧ 2 ≤ n ∧ g = empty n := by
  unfold ofBuckets? at h
  split at h
  · rename_i hn
    exact ⟨hn.2, hn.1, (Except.ok.inj h).symm⟩
  · cases h

theorem ofValues?_concat (n : Nat) (values : List Nat) (value : Nat) :
    ofValues? n (values ++ [value]) = ofValues? n values >>= fun h => h.sample value := by
  unfold ofValues?
  cases ofBuckets? n with
  | error e => rfl
  | ok h => exact sampleAll_concat h values value

theorem even_of_ofValues? (hh : ofValues? n values = .ok h) : n % 2 = 0 ∧ 2 ≤ n := by
  obtain ⟨g, hg, -⟩ := Sim.bind_eq_ok.mp hh
  obtain ⟨he, h2, -⟩ := ofBuckets?_eq_ok hg
  exact ⟨he, h2⟩

/-- Every histogram counts the values of a list. -/
theorem Reachable.exists_values (hr : Reachable n h) : n < Word.bound ∧ ∃ values, ofValues? n values = .ok h := by
  induction hr with
  | new hn hnew => exact ⟨hn, [], by rw [ofValues?, hnew]; rfl⟩
  | @sample n value h g _ hg ih =>
    obtain ⟨hn, values, hvalues⟩ := ih
    exact ⟨hn, values ++ [value], by rw [ofValues?_concat, hvalues, Sim.ok_bind, hg]⟩
  | @merge n m h g f _ _ hf ih₁ ih₂ =>
    obtain ⟨hn, xs, hx⟩ := ih₁
    obtain ⟨hm, ys, hy⟩ := ih₂
    obtain ⟨he, h2⟩ := even_of_ofValues? hx
    obtain ⟨he', h2'⟩ := even_of_ofValues? hy
    obtain ⟨-, -, k, hk, -⟩ := summarizes_of_ofValues? he h2 hn hx
    obtain ⟨-, -, j, hj, -⟩ := summarizes_of_ofValues? he' h2' hm hy
    have hlt := samples_lt_of_merge hf
    rw [hk.samples, hj.samples] at hlt
    obtain rfl : n = m := by
      have hlength := length_eq_of_merge hf
      rwa [hk.buckets, hj.buckets, length_tallies, length_tallies] at hlength
    obtain ⟨f', hf', hfs⟩ := merge_ofValues? he h2 hn hx hy hlt
    obtain rfl := Except.ok.inj (hf.symm.trans hf')
    exact ⟨hn, xs ++ ys, hfs⟩

/-- Whatever samples and merges made a histogram of `n` buckets, its width is a power
of two and a word covers its buckets.  As long as a word can count one sample more,
it takes exactly the values below `n` times the greatest power of two whose multiple
by `n` is a word; for any other value it grows until the greatest value of its last
bucket is no word.  With 16 buckets these are the values below half of the words. -/
theorem Reachable.takes_below_reach (hr : Reachable n h) :
    h.Covers n ∧ (∀ k, n * 2 ^ k < Word.bound ↔ k ≤ widest n) ∧ reach n = n * 2 ^ widest n ∧ reach 16 = 2 ^ 63 ∧
      (h.samples < Word.max → ∀ value, h.TakesBelow n (reach n) value) := by
  obtain ⟨hn, values, hvalues⟩ := hr.exists_values
  obtain ⟨he, h2⟩ := even_of_ofValues? hvalues
  obtain ⟨hlen, hv, hs⟩ := summarizes_of_ofValues? he h2 hn hvalues
  have hp : 0 < n := by omega
  obtain ⟨k, hk, hwide, hcovered⟩ := hs.holds hp hn hv
  refine ⟨⟨?_, ⟨k, hk.bucketSize⟩, ?_, ?_⟩, fun k => covered_iff hp hn, rfl, by decide, fun hroom value => ?_⟩
  · rw [hk.buckets, length_tallies]
  · rwa [hk.bucketSize, Nat.mul_comm]
  · rw [hk.maxBucket_eq_ok hp hcovered, hk.bucketSize, Nat.mul_comm]
  · have hroom' : values.length + 1 < Word.bound := by
      rw [← hk.samples]
      exact Nat.add_lt_of_lt_sub hroom
    by_cases hle : reach n ≤ value
    · have hgrow := hk.growTo_of_reach_le he h2 hn hwide hlen hle
      have hsample := hk.sample_of_reach_le he h2 hn hwide hlen hle
      refine ⟨by rw [hgrow]; simp, iff_of_true hsample hle, fun _ => ?_, fun hlt => absurd hle (Nat.not_le.mpr hlt)⟩
      exact ⟨_, hk.exists_grown he h2 hn hwide hlen hle⟩
    · have hlt := Nat.lt_of_not_le hle
      have hreach := reach_lt hp hn
      obtain ⟨j, wide, hgrow, hj, -, -, hvj, -⟩ := hk.growTo he hp hreach hwide hlen hlt
      obtain ⟨-, g, hg, -⟩ := hk.sample he hp hreach hwide hroom' hlt
      refine ⟨by rw [hgrow]; simp, iff_of_false (by rw [hg]; simp) hle, fun h => absurd h hle, fun _ => ?_⟩
      refine ⟨wide, g, hgrow, ?_, hg⟩
      rwa [hj.bucketSize, Nat.div_lt_iff_lt_mul (Nat.two_pow_pos j)]

/-- The theorem at a merge of histograms of six buckets: it takes the last value below
their reach, and no more. -/
theorem takes_below_reach_of_merged :
    ∃ left right h, (empty 6).sample 5 = .ok left ∧ (empty 6).sample (2 ^ 61) = .ok right ∧
      left.merge right = .ok h ∧ Reachable 6 h ∧ h.samples < Word.max ∧ h.Covers 6 ∧
      h.sample (6 * 2 ^ 61) = .error .mulOverflow ∧ ∃ g, h.sample (6 * 2 ^ 61 - 1) = .ok g := by
  have hleft : (empty 6).sample 5 = .ok ⟨[0, 0, 0, 0, 0, 1], 1, 1, 5, some 5, some 5⟩ := by cbv
  have hright : (empty 6).sample (2 ^ 61) =
      .ok ⟨[0, 0, 0, 0, 1, 0], 2 ^ 59, 1, 2 ^ 61, some (2 ^ 61), some (2 ^ 61)⟩ := by cbv
  have hmerge : merge ⟨[0, 0, 0, 0, 0, 1], 1, 1, 5, some 5, some 5⟩
        ⟨[0, 0, 0, 0, 1, 0], 2 ^ 59, 1, 2 ^ 61, some (2 ^ 61), some (2 ^ 61)⟩ =
      .ok ⟨[1, 0, 0, 0, 1, 0], 2 ^ 59, 2, 2 ^ 61 + 5, some 5, some (2 ^ 61)⟩ := by rfl
  have hnew : Reachable 6 (empty 6) := .new (by decide) rfl
  have hr := Reachable.merge (.sample hnew hleft) (.sample hnew hright) hmerge
  have hsamples : 2 < Word.max := by decide
  obtain ⟨hcovers, -, -, -, htakes⟩ := hr.takes_below_reach
  obtain ⟨wide, g, -, -, hg⟩ := (htakes hsamples (6 * 2 ^ 61 - 1)).takes (by decide)
  exact ⟨_, _, _, hleft, hright, hmerge, hr, hsamples, hcovers, (htakes hsamples _).refuses.mpr (by decide), g, hg⟩

end CacheSim.Histogram
