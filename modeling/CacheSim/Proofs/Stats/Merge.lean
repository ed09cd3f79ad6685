import CacheSim.Proofs.Stats.Reach

/-!
# Merging histograms

To merge the histogram of one list into that of another is to take both lists
(`Summarizes.merge`).  The narrower one grows to the width of the other, which
is the width that all values together need, and then the counts of equal buckets
add up (`addCounts_tallies`).  So a merge neither depends on the order nor on
the grouping, and the histogram without values changes nothing
(`mergesLikeAppend`).
-/

namespace CacheSim.Histogram

variable {h g f : Histogram} {n j k : Nat} {xs ys zs values : List Nat}

/-! ## Growing to a width -/

/-- A histogram grows to the width of another one, if that is wider. -/
theorem Holds.widen (hh : h.Holds n k values) (he : n % 2 = 0) (h2 : 2 ≤ n) (hn : n < Word.bound)
    (hlen : values.length < Word.bound) (hk : k ≤ widest n) (hj : j ≤ widest n) :
    ∃ g, h.widen (2 ^ j) = .ok g ∧ g.Holds n (Nat.max k j) values := by
  have hpow : ∀ {i}, i ≤ widest n → 2 ^ i < Word.bound := fun hi =>
    Nat.lt_trans (Nat.pow_lt_pow_right (by decide) (Nat.lt_succ_self _)) (two_pow_succ_lt h2 hn hi)
  have hmax : k + (j - k) = Nat.max k j := by
    show _ = Max.max k j
    omega
  obtain ⟨g, hg, hgh⟩ := hh.grown (i := j - k) he hlen (hpow (by omega))
  have hwidest := widest_lt h2 hn
  have hnarrow : ∀ i < j - k, ∀ f, Histogram.grown i h = .ok f →
      (.ok (decide (f.bucketSize < 2 ^ j)) : Except Fault Bool) = .ok true := fun i hi f hf => by
    obtain ⟨f', hf', hfh⟩ := hh.grown (i := i) he hlen (hpow (by omega))
    obtain rfl := Except.ok.inj (hf.symm.trans hf')
    rw [hfh.bucketSize, decide_eq_true (Nat.pow_lt_pow_right (by decide) (by omega))]
  have hwide : ¬ g.bucketSize < 2 ^ j := by
    rw [hgh.bucketSize]
    exact Nat.not_lt.mpr (Nat.pow_le_pow_right Nat.two_pos (by omega))
  obtain ⟨fuel, hfuel⟩ := growWhile_of_grown (by omega) hg hnarrow
  refine ⟨g, ?_, hmax ▸ hgh⟩
  rw [Histogram.widen, hfuel, growWhile, Sim.ok_bind, decide_eq_false hwide, if_neg Bool.false_ne_true]
  rfl

/-! ## Adding up -/

theorem addCounts_map {f₁ f₂ : Nat → Nat} {l : List Nat} (hf : ∀ i ∈ l, f₁ i + f₂ i < Word.bound) :
    addCounts (l.map f₁) (l.map f₂) = .ok (l.map fun i => f₁ i + f₂ i) := by
  induction l with
  | nil => rfl
  | cons i l ih =>
    have hadd : Word.add (f₁ i) (f₂ i) = .ok (f₁ i + f₂ i) :=
      Word.add_eq_ok.mpr ⟨hf i (List.mem_cons_self ..), rfl⟩
    rw [List.map_cons, List.map_cons, addCounts, hadd, Sim.ok_bind, ih fun j hj => hf j (List.mem_cons_of_mem i hj)]
    rfl

/-- The counts of two lists in buckets of one width add up to those of both. -/
theorem addCounts_tallies (width : Nat) (hlen : xs.length + ys.length < Word.bound) :
    addCounts (tallies n width xs) (tallies n width ys) = .ok (tallies n width (xs ++ ys)) := by
  rw [tallies, tallies, addCounts_map fun i _ => ?_]
  · exact congrArg _ (List.map_congr_left fun i _ => List.countP_append.symm)
  · have hx : xs.countP (· / width = i) ≤ xs.length := List.countP_le_length
    have hy : ys.countP (· / width = i) ≤ ys.length := List.countP_le_length
    omega

/-- An extreme of two lists is that of the extremes of both, if one more value at the
end of a list counts like the extreme of two. -/
theorem append_of_concat {pick : Nat → Nat → Nat} (hassoc : ∀ a b c, pick (pick a b) c = pick a (pick b c))
    {extreme : List Nat → Option Nat} (hnil : extreme [] = none)
    (hconcat : ∀ l v, extreme (l ++ [v]) = some ((extreme l).elim v (pick · v))) (xs ys : List Nat) :
    extreme (xs ++ ys) = either pick (extreme xs) (extreme ys) := by
  induction ys using List.reverseRecOn with
  | nil =>
    rw [List.append_nil, hnil]
    cases extreme xs <;> rfl
  | append_singleton ys v ih =>
    rw [← List.append_assoc, hconcat, ih, hconcat]
    cases extreme xs <;> cases extreme ys <;> simp [either, hassoc]

theorem min?_append (xs ys : List Nat) : (xs ++ ys).min? = either Nat.min xs.min? ys.min? :=
  append_of_concat Nat.min_assoc rfl min?_concat xs ys

theorem max?_append (xs ys : List Nat) : (xs ++ ys).max? = either Nat.max xs.max? ys.max? :=
  append_of_concat Nat.max_assoc rfl max?_concat xs ys

/-- Histograms of one width hold the values of both after their counts were added. -/
theorem Holds.merge (hh : h.Holds n k xs) (hg : g.Holds n j ys) (he : n % 2 = 0) (h2 : 2 ≤ n) (hn : n < Word.bound)
    (hk : k ≤ widest n) (hj : j ≤ widest n) (hlen : xs.length + ys.length < Word.bound) :
    ∃ f, h.merge g = .ok f ∧ f.Holds n (Nat.max k j) (xs ++ ys) := by
  obtain ⟨h', hwide, hh'⟩ := hh.widen he h2 hn (by omega) hk hj
  have hkj : Nat.max k j ≤ widest n := Nat.max_le.mpr ⟨hk, hj⟩
  obtain ⟨g', hwide', hg'⟩ := hg.widen he h2 hn (by omega) hj hkj
  have hsame : Nat.max j (Nat.max k j) = Nat.max k j := Nat.max_eq_right (Nat.le_max_right k j)
  rw [hsame] at hg'
  have hlength : h.buckets.length = g.buckets.length := by
    rw [hh.buckets, hg.buckets, length_tallies, length_tallies]
  have hcounts : addCounts h'.buckets g'.buckets = .ok (tallies n (2 ^ Nat.max k j) (xs ++ ys)) := by
    rw [hh'.buckets, hg'.buckets]
    exact addCounts_tallies _ hlen
  have hsamples : Word.add h'.samples g'.samples = .ok (xs.length + ys.length) := by
    rw [hh'.samples, hg'.samples]
    exact Word.add_eq_ok.mpr ⟨hlen, rfl⟩
  refine ⟨{ h' with
    buckets := tallies n (2 ^ Nat.max k j) (xs ++ ys), samples := xs.length + ys.length
    sum := Word.saturatingAdd h'.sum g'.sum, min := either Nat.min h'.min g'.min
    max := either Nat.max h'.max g'.max }, ?_, ?_⟩
  · rw [Histogram.merge, if_pos hlength]
    simp only [hg.bucketSize, hwide, hh'.bucketSize, hwide', hcounts, hsamples, Sim.ok_bind, pure, Except.pure]
  · refine ⟨hh'.bucketSize, fun v hv => ?_, rfl, by rw [List.length_append], ?_, ?_, ?_⟩
    · exact (List.mem_append.mp hv).elim (hh'.within v) (hg'.within v)
    · rw [hh'.sum, hg'.sum, List.sum_append]
      show Min.min (Min.min xs.sum Word.max + Min.min ys.sum Word.max) Word.max = Min.min (xs.sum + ys.sum) Word.max
      omega
    · rw [hh'.min, hg'.min, min?_append]
    · rw [hh'.max, hg'.max, max?_append]

/-- The summaries of two lists merge to that of both. -/
theorem Summarizes.merge (hh : h.Summarizes n xs) (hg : g.Summarizes n ys) (he : n % 2 = 0) (h2 : 2 ≤ n)
    (hn : n < Word.bound) (hx : ∀ v ∈ xs, v < reach n) (hy : ∀ v ∈ ys, v < reach n)
    (hlen : xs.length + ys.length < Word.bound) :
    ∃ f, h.merge g = .ok f ∧ f.Summarizes n (xs ++ ys) := by
  obtain ⟨k, hhk, hkleast⟩ := hh
  obtain ⟨j, hgj, hjleast⟩ := hg
  obtain ⟨f, hf, hfh⟩ := hhk.merge hgj he h2 hn (hkleast _ hx) (hjleast _ hy) hlen
  refine ⟨f, hf, _, hfh, fun i hi => Nat.max_le.mpr ⟨hkleast i fun v hv => ?_, hjleast i fun v hv => ?_⟩⟩
  · exact hi v (List.mem_append_left _ hv)
  · exact hi v (List.mem_append_right _ hv)

/-- Only histograms of equally many buckets can be merged. -/
theorem length_eq_of_merge (hf : h.merge g = .ok f) : h.buckets.length = g.buckets.length := by
  unfold Histogram.merge at hf
  split at hf
  · assumption
  · cases hf

/-- A word holds the number of samples of two histograms that can be merged. -/
theorem samples_lt_of_merge (hf : h.merge g = .ok f) : h.samples + g.samples < Word.bound := by
  unfold Histogram.merge at hf
  split at hf
  · obtain ⟨h', hh, hf⟩ := Sim.bind_eq_ok.mp hf
    obtain ⟨g', hg, hf⟩ := Sim.bind_eq_ok.mp hf
    obtain ⟨buckets, -, hf⟩ := Sim.bind_eq_ok.mp hf
    obtain ⟨samples, hadd, -⟩ := Sim.bind_eq_ok.mp hf
    rw [← (sameTotals_of_growWhile hh).samples, ← (sameTotals_of_growWhile hg).samples]
    exact (Word.add_eq_ok.mp hadd).1
  · cases hf

/-! ## Histograms of lists -/

/-- To merge the histograms of two lists is to take the values of both. -/
theorem merge_ofValues? (he : n % 2 = 0) (h2 : 2 ≤ n) (hn : n < Word.bound) (hx : ofValues? n xs = .ok h)
    (hy : ofValues? n ys = .ok g) (hlen : xs.length + ys.length < Word.bound) :
    ∃ f, h.merge g = .ok f ∧ ofValues? n (xs ++ ys) = .ok f := by
  obtain ⟨-, hxs, hhs⟩ := summarizes_of_ofValues? he h2 hn hx
  obtain ⟨-, hys, hgs⟩ := summarizes_of_ofValues? he h2 hn hy
  obtain ⟨f, hf, hfs⟩ := hhs.merge hgs he h2 hn hxs hys hlen
  have hall : ∀ v ∈ xs ++ ys, v < reach n := fun v hv => (List.mem_append.mp hv).elim (hxs v) (hys v)
  obtain ⟨f', hf', hfs'⟩ := exists_of_takeable he h2 hn (by rwa [List.length_append]) hall
  obtain rfl := hfs'.unique hfs (List.Perm.refl _)
  exact ⟨f, hf, hf'⟩

/-- The order of the values does not matter. -/
theorem ofValues?_perm (he : n % 2 = 0) (h2 : 2 ≤ n) (hn : n < Word.bound) (hx : ofValues? n xs = .ok h)
    (hp : ys.Perm xs) : ofValues? n ys = .ok h := by
  obtain ⟨hlen, hxs, hs⟩ := summarizes_of_ofValues? he h2 hn hx
  obtain ⟨g, hg, hgs⟩ := exists_of_takeable he h2 hn (hp.length_eq ▸ hlen) fun v hv => hxs v (hp.mem_iff.mp hv)
  rw [← hs.unique hgs hp]
  exact hg

/-- Merging histograms of `n` buckets is like appending the lists of their values. -/
structure MergesLikeAppend (n : Nat) : Prop where
  append : ∀ {xs ys h g}, ofValues? n xs = .ok h → ofValues? n ys = .ok g → xs.length + ys.length < Word.bound →
    ∃ f, h.merge g = .ok f ∧ ofValues? n (xs ++ ys) = .ok f
  comm : ∀ {xs ys h g}, ofValues? n xs = .ok h → ofValues? n ys = .ok g → xs.length + ys.length < Word.bound →
    ∃ f, h.merge g = .ok f ∧ g.merge h = .ok f
  assoc : ∀ {xs ys zs h g f}, ofValues? n xs = .ok h → ofValues? n ys = .ok g → ofValues? n zs = .ok f →
    xs.length + ys.length + zs.length < Word.bound →
    ∃ e, (h.merge g >>= fun hg => hg.merge f) = .ok e ∧ (g.merge f >>= fun gf => h.merge gf) = .ok e
  unit : ∀ {xs h}, ofValues? n xs = .ok h → h.merge (empty n) = .ok h ∧ (empty n).merge h = .ok h

theorem mergesLikeAppend (he : n % 2 = 0) (h2 : 2 ≤ n) (hn : n < Word.bound) : MergesLikeAppend n where
  append hx hy hlen := merge_ofValues? he h2 hn hx hy hlen
  comm hx hy hlen := by
    obtain ⟨f, hf, hfs⟩ := merge_ofValues? he h2 hn hx hy hlen
    obtain ⟨f', hf', hfs'⟩ := merge_ofValues? he h2 hn hy hx (by omega)
    obtain rfl := Except.ok.inj ((ofValues?_perm he h2 hn hfs List.perm_append_comm).symm.trans hfs')
    exact ⟨f, hf, hf'⟩
  assoc {xs ys zs h g f} hx hy hz hlen := by
    obtain ⟨hg, hmerge, hxy⟩ := merge_ofValues? he h2 hn hx hy (by omega)
    obtain ⟨e, he₁, hleft⟩ := merge_ofValues? he h2 hn hxy hz (by rw [List.length_append]; omega)
    obtain ⟨gf, hmerge', hyz⟩ := merge_ofValues? he h2 hn hy hz (by omega)
    obtain ⟨e', he₂, hright⟩ := merge_ofValues? he h2 hn hx hyz (by rw [List.length_append]; omega)
    rw [List.append_assoc] at hleft
    obtain rfl := Except.ok.inj (hleft.symm.trans hright)
    exact ⟨e, by rw [hmerge, Sim.ok_bind, he₁], by rw [hmerge', Sim.ok_bind, he₂]⟩
  unit {xs h} hx := by
    have hempty : ofValues? n [] = .ok (empty n) := ofValues?_eq he h2 []
    have hlen := (summarizes_of_ofValues? he h2 hn hx).1
    obtain ⟨f, hf, hfs⟩ := merge_ofValues? he h2 hn hx hempty hlen
    obtain ⟨f', hf', hfs'⟩ := merge_ofValues? he h2 hn hempty hx (by simpa using hlen)
    rw [List.append_nil] at hfs
    obtain rfl := Except.ok.inj (hx.symm.trans hfs)
    obtain rfl := Except.ok.inj (hx.symm.trans hfs')
    exact ⟨hf, hf'⟩

end CacheSim.Histogram
