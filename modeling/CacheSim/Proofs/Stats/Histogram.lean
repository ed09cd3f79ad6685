import CacheSim.Sim
import CacheSim.Stats.Histogram
import Mathlib.Algebra.GroupWithZero.Nat
import Mathlib.Algebra.Order.BigOperators.Group.List
import Mathlib.Algebra.Order.Group.Nat

/-!
# Samples that fit

A histogram grows in place: each bucket is read before it is overwritten, so that
it becomes the sums of neighbours as they were (`grow_eq`).

A histogram takes every value below half of the words, as long as the number of
samples is a word (`Counts.sample_eq_ok`).  It never has to grow beyond what a
word can cover, because it only grows up to twice the value.  Whatever value it
takes, it counts one sample more (`Counts.sampled`).
-/

namespace CacheSim.Histogram

variable {h : Histogram} {value : Nat}

/-- An even number of buckets that a word covers, and whose counts are the samples. -/
structure Counts (h : Histogram) : Prop where
  even : h.buckets.length % 2 = 0
  pos : 0 < h.buckets.length
  width : 0 < h.bucketSize
  covered : h.bucketSize * h.buckets.length < Word.bound
  sum : h.buckets.sum = h.samples

theorem counts_empty {n : Nat} (he : n % 2 = 0) (hp : 0 < n) (hn : n < Word.bound) :
    (empty n).Counts where
  even := by simpa [empty] using he
  pos := by simpa [empty] using hp
  width := Nat.one_pos
  covered := by simpa [empty] using hn
  sum := by simp [empty]

/-! ## Growing in place -/

/-- The sums of neighbours in a list of `length` counts; the last of an odd
number of counts has no neighbour. -/
def pairSums (length : Nat) : List Nat → Except Fault (List Nat)
  | [] => .ok []
  | [_] => .error (.indexOutOfBounds length length)
  | a :: b :: rest => do
    let s ← Word.add a b
    let sums ← pairSums length rest
    return s :: sums

theorem count_append {front : List Nat} {i : Nat} (hi : front.length = i) (n : Nat) (rest : List Nat) :
    count (front ++ n :: rest) i = .ok n := by
  simp [count, ← hi]

/-- The counts behind the middle are not read any more. -/
theorem foldlM_fold_stale {stale : List Nat} : ∀ sums : List Nat, stale.length ≤ sums.length →
    (List.range' sums.length stale.length).foldlM fold (sums ++ stale) =
      .ok (sums ++ List.replicate stale.length 0) := by
  induction stale with
  | nil => intro sums _; rfl
  | cons c stale ih =>
    intro sums hle
    rw [List.length_cons] at hle
    have hfold : fold (sums ++ c :: stale) sums.length = .ok (sums ++ [0] ++ stale) := by
      rw [fold, if_neg (by simp only [List.length_append, List.length_cons]; omega)]
      simp [pure, Except.pure]
    have hrest := ih (sums ++ [0]) (by rw [List.length_append]; omega)
    rw [List.length_append, List.length_singleton] at hrest
    rw [List.length_cons, List.range'_succ, List.foldlM_cons, hfold, Sim.ok_bind, hrest,
      List.replicate_succ, List.append_assoc]
    rfl

/-- The merge of the first pairs has left their sums, as many counts that were
read already, and the counts to read. -/
theorem foldlM_fold_eq (n : Nat) : ∀ rest sums stale : List Nat, stale.length = sums.length →
    2 * sums.length + rest.length = n →
    (List.range' sums.length (n - sums.length)).foldlM fold (sums ++ stale ++ rest) =
      pairSums n rest >>= fun more =>
        .ok (sums ++ more ++ List.replicate (n - (sums ++ more).length) 0)
  | [], sums, stale, hstale, hn => by
    have hsums : n - sums.length = stale.length := by rw [List.length_nil] at hn; omega
    rw [pairSums, Sim.ok_bind, List.append_nil, List.append_nil, hsums]
    exact foldlM_fold_stale sums (Nat.le_of_eq hstale)
  | [a], sums, stale, hstale, hn => by
    rw [List.length_singleton] at hn
    have hlength : (sums ++ stale ++ [a]).length = n := by simp only [List.length_append, List.length_singleton]; omega
    have hlow : count (sums ++ stale ++ [a]) (2 * sums.length) = .ok a :=
      count_append (by rw [List.length_append]; omega) a []
    have hhigh : count (sums ++ stale ++ [a]) (2 * sums.length + 1) = .error (.indexOutOfBounds n n) := by
      rw [count, List.getElem?_eq_none (by omega), hlength, hn]
    rw [show n - sums.length = sums.length + 1 by omega, List.range'_succ, List.foldlM_cons, fold,
      if_pos (by omega), hlow, Sim.ok_bind, hhigh]
    rfl
  | a :: b :: rest, sums, stale, hstale, hn => by
    rw [List.length_cons, List.length_cons] at hn
    have hlength : (sums ++ stale ++ a :: b :: rest).length = n := by
      simp only [List.length_append, List.length_cons]; omega
    have hlow : count (sums ++ stale ++ a :: b :: rest) (2 * sums.length) = .ok a :=
      count_append (by rw [List.length_append]; omega) a (b :: rest)
    have hhigh : count (sums ++ stale ++ a :: b :: rest) (2 * sums.length + 1) = .ok b := by
      rw [List.append_cons]
      exact count_append (by simp only [List.length_append, List.length_singleton]; omega) b rest
    -- the sum takes the place of the first count that was not overwritten yet
    obtain ⟨c, stale', hsplit⟩ : ∃ c stale', stale ++ [a, b] = c :: stale' :=
      List.exists_cons_of_ne_nil (by simp)
    have hset (s : Nat) : (sums ++ stale ++ a :: b :: rest).set sums.length s = sums ++ [s] ++ stale' ++ rest := by
      rw [show sums ++ stale ++ a :: b :: rest = sums ++ (stale ++ [a, b] ++ rest) by simp, hsplit]
      simp
    have hstale' : stale'.length = sums.length + 1 := by
      have := congrArg List.length hsplit
      simp only [List.length_append, List.length_cons, List.length_nil] at this
      omega
    rw [show n - sums.length = (n - (sums.length + 1)) + 1 by omega, List.range'_succ, List.foldlM_cons, fold,
      if_pos (by omega), hlow, Sim.ok_bind, hhigh, Sim.ok_bind, pairSums]
    cases hadd : Word.add a b with
    | error e => rfl
    | ok s =>
      have hrest := foldlM_fold_eq n rest (sums ++ [s]) stale'
        (by rw [List.length_append]; exact hstale') (by rw [List.length_append, List.length_singleton]; omega)
      rw [List.length_append, List.length_singleton] at hrest
      simp only [Sim.ok_bind, pure, Except.pure, hset, hrest, bind_assoc]
      simp only [List.append_assoc, List.singleton_append]

/-- Growing adds neighbours and empties the buckets behind the sums. -/
theorem grow_eq (h : Histogram) :
    h.grow = pairSums h.buckets.length h.buckets >>= fun sums => Word.mul h.bucketSize 2 >>= fun width =>
      .ok { h with buckets := sums ++ List.replicate (h.buckets.length - sums.length) 0, bucketSize := width } := by
  have hfold := foldlM_fold_eq h.buckets.length h.buckets [] [] rfl (Nat.zero_add _)
  rw [List.length_nil, Nat.sub_zero, ← List.range_eq_range', List.nil_append, List.nil_append] at hfold
  rw [grow, hfold, bind_assoc]
  rfl

/-! ## Growing enough -/

theorem pairSums_eq_ok (n : Nat) : ∀ {counts : List Nat}, counts.length % 2 = 0 →
    counts.sum < Word.bound →
    ∃ sums, pairSums n counts = .ok sums ∧ sums.sum = counts.sum ∧ 2 * sums.length = counts.length
  | [], _, _ => ⟨[], rfl, rfl, rfl⟩
  | [_], he, _ => by simp at he
  | a :: b :: rest, he, hs => by
    simp only [List.sum_cons, List.length_cons] at he hs
    have hrest : rest.length % 2 = 0 := by omega
    obtain ⟨sums, hsums, hsum, hlen⟩ := pairSums_eq_ok n hrest (by omega)
    have hadd : Word.add a b = .ok (a + b) := Word.add_eq_ok.mpr ⟨by omega, rfl⟩
    refine ⟨(a + b) :: sums, by simp [pairSums, hadd, hsums], ?_, ?_⟩
    · simp only [List.sum_cons, hsum]; omega
    · simp only [List.length_cons]; omega

/-- A histogram that covers at most half of the words can grow. -/
theorem Counts.grow_eq_ok (hc : h.Counts) (hs : h.samples < Word.bound)
    (hw : 2 * (h.bucketSize * h.buckets.length) < Word.bound) :
    ∃ g, h.grow = .ok g ∧ g.Counts ∧ g.samples = h.samples ∧ g.bucketSize = h.bucketSize * 2 ∧
      g.buckets.length = h.buckets.length := by
  obtain ⟨sums, hsums, hsum, hlen⟩ := pairSums_eq_ok h.buckets.length hc.even (hc.sum ▸ hs)
  have hpos := hc.pos
  have hle : h.bucketSize * 2 ≤ 2 * (h.bucketSize * h.buckets.length) := by
    rw [Nat.mul_comm h.bucketSize 2]
    exact Nat.mul_le_mul_left 2 (Nat.le_mul_of_pos_right _ hpos)
  have hmul : Word.mul h.bucketSize 2 = .ok (h.bucketSize * 2) := Word.mul_eq_ok.mpr ⟨by omega, rfl⟩
  have hlength : (sums ++ List.replicate (h.buckets.length - sums.length) 0).length = h.buckets.length := by
    rw [List.length_append, List.length_replicate]; omega
  refine ⟨{ h with
    buckets := sums ++ List.replicate (h.buckets.length - sums.length) 0
    bucketSize := h.bucketSize * 2 }, ?_, ?_, rfl, rfl, hlength⟩
  · simp [grow_eq, hsums, hmul]
  · refine ⟨by simpa only [hlength] using hc.even, by simpa only [hlength] using hpos, ?_, ?_, ?_⟩
    · exact Nat.mul_pos hc.width Nat.two_pos
    · simp only [hlength, Nat.mul_right_comm h.bucketSize 2]
      omega
    · simp only [List.sum_append, List.sum_replicate_nat, hsum, hc.sum]
      simp

theorem Counts.maxBucket_eq_ok (hc : h.Counts) :
    h.maxBucket = .ok (h.bucketSize * h.buckets.length - 1) := by
  have hmul : Word.mul h.bucketSize h.buckets.length = .ok (h.bucketSize * h.buckets.length) :=
    Word.mul_eq_ok.mpr ⟨hc.covered, rfl⟩
  have hpos : 1 ≤ h.bucketSize * h.buckets.length := Nat.mul_pos hc.width hc.pos
  simp [maxBucket, hmul, Word.sub, hpos]

/-- Doubling often enough covers a value. -/
theorem Counts.growWhile_eq_ok (hv : 2 * value < Word.bound) : ∀ (fuel : Nat) {h : Histogram},
    h.Counts → h.samples < Word.bound → value < h.bucketSize * h.buckets.length * 2 ^ fuel →
    ∃ g, growWhile (fun h => do return decide ((← h.maxBucket) < value)) (fuel + 1) h = .ok g ∧
      g.Counts ∧ g.samples = h.samples ∧ value < g.bucketSize * g.buckets.length
  | fuel, h, hc, hs, hlt => by
    have hpos : 1 ≤ h.bucketSize * h.buckets.length := Nat.mul_pos hc.width hc.pos
    by_cases hsmall : h.bucketSize * h.buckets.length - 1 < value
    · obtain ⟨g, hg, hgc, hgs, hgw, hgl⟩ := hc.grow_eq_ok hs (by omega)
      obtain ⟨fuel, rfl⟩ : ∃ k, fuel = k + 1 := by
        refine Nat.exists_eq_add_one.mpr (Nat.pos_of_ne_zero ?_)
        rintro rfl
        omega
      have hlt' : value < g.bucketSize * g.buckets.length * 2 ^ fuel := by
        rw [hgw, hgl, Nat.mul_right_comm h.bucketSize 2, Nat.mul_assoc _ 2, ← Nat.pow_succ']
        exact hlt
      obtain ⟨f, hf, hfc, hfs, hfv⟩ := growWhile_eq_ok hv fuel hgc (hgs ▸ hs) hlt'
      refine ⟨f, ?_, hfc, hfs.trans hgs, hfv⟩
      rw [growWhile]
      simp only [hc.maxBucket_eq_ok, Sim.ok_bind, pure, Except.pure, hsmall, decide_true, if_true, hg]
      exact hf
    · refine ⟨h, ?_, hc, rfl, by omega⟩
      rw [growWhile]
      simp [hc.maxBucket_eq_ok, hsmall, pure, Except.pure]

/-! ## Samples -/

theorem sum_set (counts : List Nat) (i n : Nat) (h : counts[i]? = some n) :
    (counts.set i (n + 1)).sum = counts.sum + 1 := by
  induction counts generalizing i with
  | nil => simp at h
  | cons c counts ih =>
    cases i with
    | zero =>
      obtain rfl : c = n := by simpa using h
      simp only [List.set_cons_zero, List.sum_cons]
      omega
    | succ i =>
      simp only [List.set_cons_succ, List.sum_cons, ih i (by simpa using h)]
      omega

/-- A value below half of the words is counted. -/
theorem Counts.sample_eq_ok (hc : h.Counts) (hv : 2 * value < Word.bound)
    (hs : h.samples + 1 < Word.bound) :
    ∃ g, h.sample value = .ok g ∧ g.Counts ∧ g.samples = h.samples + 1 := by
  have hpos : 1 ≤ h.bucketSize * h.buckets.length := Nat.mul_pos hc.width hc.pos
  have hbig : value < h.bucketSize * h.buckets.length * 2 ^ 64 := by
    have : Word.bound = 2 ^ 64 := rfl
    omega
  obtain ⟨g, hg, hgc, hgs, hgv⟩ := growWhile_eq_ok hv 64 hc (by omega) hbig
  have hgrow : h.growTo value = .ok g := hg
  have hi : value / g.bucketSize < g.buckets.length := by
    rw [Nat.div_lt_iff_lt_mul hgc.width, Nat.mul_comm]
    exact hgv
  have hget : g.buckets[value / g.bucketSize]? = some g.buckets[value / g.bucketSize] :=
    List.getElem?_eq_getElem hi
  have hle : g.buckets[value / g.bucketSize] ≤ g.buckets.sum := List.le_sum_of_mem (List.getElem_mem hi)
  have hsum := hgc.sum
  have hbump : Word.add g.buckets[value / g.bucketSize] 1 = .ok (g.buckets[value / g.bucketSize] + 1) :=
    Word.add_eq_ok.mpr ⟨by omega, rfl⟩
  have hcount : Word.add g.samples 1 = .ok (g.samples + 1) := Word.add_eq_ok.mpr ⟨by omega, rfl⟩
  refine ⟨_, by simp [sample, hgrow, bump, hget, hbump, hcount]; rfl, ?_, by simp [hgs]⟩
  refine ⟨by simpa using hgc.even, by simpa using hgc.pos, hgc.width, by simpa using hgc.covered, ?_⟩
  simp only [sum_set _ _ _ hget, hsum]

/-! ## What a sample leaves -/

/-- An even number of buckets whose counts are the samples, however wide. -/
structure Tallies (h : Histogram) : Prop where
  even : h.buckets.length % 2 = 0
  pos : 0 < h.buckets.length
  width : 0 < h.bucketSize
  sum : h.buckets.sum = h.samples

theorem Counts.tallies (hc : h.Counts) : h.Tallies :=
  ⟨hc.even, hc.pos, hc.width, hc.sum⟩

theorem pairSums_spec (n : Nat) : ∀ {counts sums : List Nat}, pairSums n counts = .ok sums →
    sums.sum = counts.sum ∧ 2 * sums.length = counts.length
  | [], _, h => by
    obtain rfl := Except.ok.inj h
    exact ⟨rfl, rfl⟩
  | a :: b :: rest, _, h => by
    obtain ⟨s, hs, h⟩ := Sim.bind_eq_ok.mp h
    obtain ⟨sums, hsums, h⟩ := Sim.bind_eq_ok.mp h
    obtain rfl := Except.ok.inj h
    obtain ⟨hsum, hlen⟩ := pairSums_spec n hsums
    obtain ⟨-, rfl⟩ := Word.add_eq_ok.mp hs
    simp only [List.sum_cons, List.length_cons]
    omega

variable {g : Histogram}

theorem Tallies.grow (ht : h.Tallies) (hg : h.grow = .ok g) : g.Tallies ∧ g.samples = h.samples := by
  rw [grow_eq] at hg
  obtain ⟨sums, hsums, hg⟩ := Sim.bind_eq_ok.mp hg
  obtain ⟨width, hwidth, hg⟩ := Sim.bind_eq_ok.mp hg
  obtain rfl := Except.ok.inj hg
  obtain ⟨hsum, hlen⟩ := pairSums_spec _ hsums
  obtain ⟨-, rfl⟩ := Word.mul_eq_ok.mp hwidth
  have hlength : (sums ++ List.replicate (h.buckets.length - sums.length) 0).length = h.buckets.length := by
    rw [List.length_append, List.length_replicate]; omega
  refine ⟨⟨by simpa only [hlength] using ht.even, by simpa only [hlength] using ht.pos,
    Nat.mul_pos ht.width Nat.two_pos, ?_⟩, rfl⟩
  rw [List.sum_append, List.sum_replicate_nat, Nat.mul_zero, hsum, ht.sum]
  rfl

/-- Growing ends only when a word covers the buckets. -/
theorem Tallies.growTo (ht : h.Tallies) (hg : h.growTo value = .ok g) :
    g.Counts ∧ g.samples = h.samples := by
  unfold Histogram.growTo at hg
  generalize doublings = fuel at hg
  induction fuel generalizing h with
  | zero => cases hg
  | succ fuel ih =>
    obtain ⟨small, hsmall, hg⟩ := Sim.bind_eq_ok.mp hg
    obtain ⟨covered, hmax, -⟩ := Sim.bind_eq_ok.mp hsmall
    split at hg
    · obtain ⟨k, hk, hg⟩ := Sim.bind_eq_ok.mp hg
      obtain ⟨htk, hsamples⟩ := ht.grow hk
      exact ih htk hg |>.imp_right (·.trans hsamples)
    · obtain rfl := Except.ok.inj hg
      obtain ⟨size, hsize, -⟩ := Sim.bind_eq_ok.mp hmax
      exact ⟨⟨ht.even, ht.pos, ht.width, (Word.mul_eq_ok.mp hsize).1, ht.sum⟩, rfl⟩

/-- A value that was counted is one sample more. -/
theorem Counts.sampled (hc : h.Counts) (hg : h.sample value = .ok g) :
    g.Counts ∧ g.samples = h.samples + 1 := by
  obtain ⟨k, hk, hg⟩ := Sim.bind_eq_ok.mp hg
  obtain ⟨buckets, hbump, hg⟩ := Sim.bind_eq_ok.mp hg
  obtain ⟨samples, hadd, hg⟩ := Sim.bind_eq_ok.mp hg
  obtain rfl := Except.ok.inj hg
  obtain ⟨hkc, hks⟩ := hc.tallies.growTo hk
  obtain ⟨-, rfl⟩ := Word.add_eq_ok.mp hadd
  unfold bump at hbump
  split at hbump
  · rename_i n hn
    obtain ⟨m, hm, hbump⟩ := Sim.bind_eq_ok.mp hbump
    obtain rfl := Except.ok.inj hbump
    obtain ⟨-, rfl⟩ := Word.add_eq_ok.mp hm
    refine ⟨⟨?_, ?_, hkc.width, ?_, ?_⟩, by rw [hks]⟩
    · rw [List.length_set]; exact hkc.even
    · rw [List.length_set]; exact hkc.pos
    · rw [List.length_set]; exact hkc.covered
    · rw [sum_set _ _ _ hn, hkc.sum]
  · cases hbump

/-! ## Equal samples -/

/-- All is the same but the buckets. -/
structure SameTotals (g h : Histogram) : Prop where
  samples : g.samples = h.samples
  sum : g.sum = h.sum
  min : g.min = h.min
  max : g.max = h.max

theorem sameTotals_of_growWhile {tooSmall : Histogram → Except Fault Bool} {fuel : Nat}
    (hg : growWhile tooSmall fuel h = .ok g) : g.SameTotals h := by
  induction fuel generalizing h with
  | zero => cases hg
  | succ fuel ih =>
    obtain ⟨small, -, hg⟩ := Sim.bind_eq_ok.mp hg
    split at hg
    · obtain ⟨k, hk, hg⟩ := Sim.bind_eq_ok.mp hg
      obtain ⟨sums, -, hk⟩ := Sim.bind_eq_ok.mp hk
      obtain ⟨width, -, hk⟩ := Sim.bind_eq_ok.mp hk
      obtain rfl := Except.ok.inj hk
      obtain ⟨hsamples, hsum, hmin, hmax⟩ := ih hg
      exact ⟨hsamples, hsum, hmin, hmax⟩
    · obtain rfl := Except.ok.inj hg
      exact ⟨rfl, rfl, rfl, rfl⟩

/-- What a value changes apart from the buckets. -/
theorem sample_eq_ok (hg : h.sample value = .ok g) :
    g.samples = h.samples + 1 ∧ g.sum = Word.saturatingAdd h.sum value ∧
      g.min = some (h.min.elim value (Nat.min · value)) ∧ g.max = some (h.max.elim value (Nat.max · value)) := by
  obtain ⟨k, hk, hg⟩ := Sim.bind_eq_ok.mp hg
  obtain ⟨buckets, -, hg⟩ := Sim.bind_eq_ok.mp hg
  obtain ⟨samples, hadd, hg⟩ := Sim.bind_eq_ok.mp hg
  obtain rfl := Except.ok.inj hg
  obtain ⟨-, rfl⟩ := Word.add_eq_ok.mp hadd
  obtain ⟨hsamples, hsum, hmin, hmax⟩ := sameTotals_of_growWhile hk
  exact ⟨by rw [hsamples], by rw [hsum], by rw [hmin], by rw [hmax]⟩

theorem sampleAll_concat (h : Histogram) (values : List Nat) (value : Nat) :
    h.sampleAll (values ++ [value]) = h.sampleAll values >>= fun g => g.sample value := by
  simp [sampleAll]

/-- The totals of equal samples, if a word holds their sum. -/
theorem sampleAll_replicate {buckets n : Nat} (hg : (empty buckets).sampleAll (List.replicate n value) = .ok g)
    (hn : n * value < Word.bound) :
    g.samples = n ∧ g.sum = n * value ∧ g.min = (if n = 0 then none else some value) ∧
      g.max = (if n = 0 then none else some value) := by
  induction n generalizing g with
  | zero =>
    obtain rfl := Except.ok.inj hg
    simp [empty]
  | succ n ih =>
    rw [Nat.succ_mul] at hn
    rw [List.replicate_succ', sampleAll_concat] at hg
    obtain ⟨k, hk, hg⟩ := Sim.bind_eq_ok.mp hg
    obtain ⟨hsamples, hsum, hmin, hmax⟩ := sample_eq_ok hg
    obtain ⟨hsamples', hsum', hmin', hmax'⟩ := ih hk (by omega)
    refine ⟨by omega, ?_, ?_, ?_⟩
    · have hle : n * value + value ≤ Word.max := Nat.le_pred_of_lt hn
      rw [hsum, hsum', Nat.succ_mul, Word.saturatingAdd, Nat.min_eq_left hle]
    · rw [hmin, hmin']
      split <;> simp
    · rw [hmax, hmax']
      split <;> simp

end CacheSim.Histogram
