import CacheSim.Proofs.Stats.Doubling
import CacheSim.Proofs.Stats.Reachable
import CacheSim.Stats.Format

/-!
# The resolution of merged histograms

Before the counts of two histograms are added, each grows to the width of the other.  As
growing only doubles a width, both come to one width exactly if the one width is the
other times a power of two (`width_eq_iff`).  Histograms that were made by samples and
merges have such widths (`Reachable.mergesAlike`), but documents may give any two.  Then
counts of unlike buckets are added (`merge_of_unlike_widths`), or a loop goes on for ever,
which it does exactly if one width is zero, the other is not, and a word holds the sum of
the counts in the buckets without width (`diverges_iff`).

`mergesAlike_iff` says which histograms merge at one resolution.
-/

namespace CacheSim.Histogram

variable {h g f h' g' : Histogram} {width k : Nat} {xs ys values : List Nat}

/-! ## The values that are counted -/

/-- The counts are those of the values, and each value is in the range of its bucket. -/
structure Tallied (h : Histogram) (values : List Nat) : Prop where
  count : ∀ i, h.buckets.getD i 0 = values.countP fun v => i * h.bucketSize ≤ v ∧ v < (i + 1) * h.bucketSize
  within : ∀ v ∈ values, v < h.buckets.length * h.bucketSize

/-- The values of two neighbouring ranges. -/
theorem countP_add_countP {low mid high : Nat} (hlow : low ≤ mid) (hhigh : mid ≤ high) (values : List Nat) :
    (values.countP fun v => low ≤ v ∧ v < mid) + (values.countP fun v => mid ≤ v ∧ v < high) =
      values.countP fun v => low ≤ v ∧ v < high := by
  induction values with
  | nil => rfl
  | cons v values ih =>
    simp only [List.countP_cons, decide_eq_true_eq]
    split <;> split <;> split <;> omega

/-- A merge of neighbours leaves every value in the range of its bucket. -/
theorem Tallied.doubled (ht : h.Tallied values) (hd : h.Doubled g) : g.Tallied values where
  count i := by
    have hlow : i * (h.bucketSize * 2) = 2 * i * h.bucketSize := by
      rw [Nat.mul_comm h.bucketSize 2, ← Nat.mul_assoc, Nat.mul_comm i 2]
    have hhigh : (i + 1) * (h.bucketSize * 2) = (2 * i + 1 + 1) * h.bucketSize := by
      rw [Nat.mul_comm h.bucketSize 2, ← Nat.mul_assoc, Nat.mul_comm (i + 1) 2, Nat.mul_succ]
    rw [hd.count, hd.bucketSize, ht.count, ht.count, hlow, hhigh]
    exact countP_add_countP (Nat.mul_le_mul_right _ (Nat.le_succ _)) (Nat.mul_le_mul_right _ (Nat.le_succ _)) values
  within v hv := by
    have hlt := ht.within v hv
    rw [hd.length, hd.bucketSize, ← Nat.mul_assoc]
    omega

theorem Tallied.widen (ht : h.Tallied values) (hg : h.widen width = .ok g) : g.Tallied values := by
  obtain ⟨i, -, hgrown, -⟩ := exists_grown_of_growWhile hg
  exact grown_keeps (P := (·.Tallied values)) hgrown ht fun hd hf => hf.doubled hd

/-! ## The widths -/

/-- One width is the other, doubled any number of times. -/
def MeetByDoubling (v w : Nat) : Prop :=
  ∃ k, v = w * 2 ^ k ∨ w = v * 2 ^ k

/-- A histogram that is wide enough does not grow. -/
theorem widen_of_le (hle : width ≤ h.bucketSize) : h.widen width = .ok h := by
  show growWhile _ (64 + 1) h = _
  rw [growWhile, Sim.ok_bind, decide_eq_false (Nat.not_lt.mpr hle)]
  rfl

/-- A histogram grows to exactly the width it comes to by doubling. -/
theorem bucketSize_of_widen (hg : h.widen (h.bucketSize * 2 ^ k) = .ok g) : g.bucketSize = h.bucketSize * 2 ^ k := by
  obtain ⟨i, -, hgrown, hwide, hnarrow⟩ := exists_grown_of_growWhile hg
  have hwidth := bucketSize_of_grown hgrown
  have hle : h.bucketSize * 2 ^ k ≤ g.bucketSize := by simpa using hwide
  refine Nat.le_antisymm (Nat.not_lt.mp fun hlt => ?_) hle
  have hki : k < i := Nat.lt_of_not_le fun hik =>
    Nat.not_le.mpr hlt (hwidth ▸ Nat.mul_le_mul_left _ (Nat.pow_le_pow_right Nat.two_pos hik))
  obtain ⟨f, hf, hsmall⟩ := hnarrow k hki
  rw [bucketSize_of_grown hf] at hsmall
  exact absurd hsmall (by simp)

/-- After each has grown to the other, the widths are equal if they meet by doubling. -/
theorem width_eq_iff (hh : h.widen g.bucketSize = .ok h') (hg : g.widen h'.bucketSize = .ok g') :
    g'.bucketSize = h'.bucketSize ↔ MeetByDoubling h.bucketSize g.bucketSize := by
  constructor
  · intro heq
    obtain ⟨i, -, hi, -⟩ := exists_grown_of_growWhile hh
    obtain ⟨j, -, hj, -⟩ := exists_grown_of_growWhile hg
    rw [bucketSize_of_grown hi, bucketSize_of_grown hj] at heq
    -- The lesser number of doublings cancels.
    rcases Nat.le_total i j with hij | hij
    · obtain ⟨k, rfl⟩ := Nat.exists_eq_add_of_le hij
      rw [Nat.add_comm, Nat.pow_add, ← Nat.mul_assoc] at heq
      exact ⟨k, .inl (Nat.eq_of_mul_eq_mul_right (Nat.two_pow_pos i) heq.symm)⟩
    · obtain ⟨k, rfl⟩ := Nat.exists_eq_add_of_le hij
      rw [Nat.add_comm, Nat.pow_add, ← Nat.mul_assoc] at heq
      exact ⟨k, .inr (Nat.eq_of_mul_eq_mul_right (Nat.two_pow_pos j) heq)⟩
  · rintro ⟨k, hk | hk⟩
    · have hle : g.bucketSize ≤ h.bucketSize := hk ▸ Nat.le_mul_of_pos_right _ (Nat.two_pow_pos k)
      obtain rfl := Except.ok.inj ((widen_of_le hle).symm.trans hh)
      rw [hk] at hg ⊢
      exact bucketSize_of_widen hg
    · rw [hk] at hh
      have hwidth := (bucketSize_of_widen hh).trans hk.symm
      obtain rfl := Except.ok.inj ((widen_of_le (Nat.le_of_eq hwidth)).symm.trans hg)
      exact hwidth.symm

/-! ## The sum of the counts -/

theorem getD_addCounts : ∀ {as bs sums : List Nat}, as.length = bs.length → addCounts as bs = .ok sums →
    sums.length = as.length ∧ ∀ i, sums.getD i 0 = as.getD i 0 + bs.getD i 0
  | [], [], _, _, h => by
    obtain rfl := Except.ok.inj h
    exact ⟨rfl, fun _ => rfl⟩
  | a :: as, b :: bs, _, hlen, h => by
    obtain ⟨s, hs, h⟩ := Sim.bind_eq_ok.mp h
    obtain ⟨sums, hsums, h⟩ := Sim.bind_eq_ok.mp h
    obtain rfl := Except.ok.inj h
    obtain ⟨-, rfl⟩ := Word.add_eq_ok.mp hs
    obtain ⟨hlength, hcount⟩ := getD_addCounts (Nat.succ.inj hlen) hsums
    refine ⟨congrArg (· + 1) hlength, fun i => ?_⟩
    cases i with
    | zero => rfl
    | succ i => exact hcount i

theorem addCounts_ne_endless (as bs : List Nat) : addCounts as bs ≠ .error .endlessGrowth := by
  fun_induction addCounts as bs with
  | case1 a as b bs ih => exact bind_ne_endless (add_ne_endless a b) fun _ => bind_ne_endless ih fun _ => ok_ne_endless _
  | case2 => exact ok_ne_endless _

theorem length_of_widen (hg : h.widen width = .ok g) : g.buckets.length = h.buckets.length := by
  obtain ⟨i, -, hgrown, -⟩ := exists_grown_of_growWhile hg
  exact length_of_grown hgrown

/-- What a merge did: both grew, and the counts at equal places were added. -/
structure Merged (h g h' g' f : Histogram) : Prop where
  left : h.widen g.bucketSize = .ok h'
  right : g.widen h'.bucketSize = .ok g'
  bucketSize : f.bucketSize = h'.bucketSize
  length : f.buckets.length = h'.buckets.length
  length_eq : g'.buckets.length = h'.buckets.length
  count : ∀ i, f.buckets.getD i 0 = h'.buckets.getD i 0 + g'.buckets.getD i 0

theorem merged_of_merge (hf : h.merge g = .ok f) : ∃ h' g', Merged h g h' g' f := by
  have hlen := length_eq_of_merge hf
  rw [merge, if_pos hlen] at hf
  obtain ⟨h', hh, hf⟩ := Sim.bind_eq_ok.mp hf
  obtain ⟨g', hg, hf⟩ := Sim.bind_eq_ok.mp hf
  obtain ⟨buckets, hbuckets, hf⟩ := Sim.bind_eq_ok.mp hf
  obtain ⟨samples, -, hf⟩ := Sim.bind_eq_ok.mp hf
  obtain rfl := Except.ok.inj hf
  have hlen' : h'.buckets.length = g'.buckets.length := by rw [length_of_widen hh, length_of_widen hg, hlen]
  obtain ⟨hlength, hcount⟩ := getD_addCounts hlen' hbuckets
  exact ⟨h', g', hh, hg, rfl, hlength, hlen'.symm, hcount⟩

/-- At one width, the counts of both are those of all values. -/
theorem Merged.tallied (hm : Merged h g h' g' f) (hwidth : g'.bucketSize = h'.bucketSize) (hx : h.Tallied xs)
    (hy : g.Tallied ys) : f.Tallied (xs ++ ys) := by
  have hx' := hx.widen hm.left
  have hy' := hy.widen hm.right
  refine ⟨fun i => ?_, fun v hv => ?_⟩
  · rw [hm.count, hx'.count, hy'.count, hwidth, hm.bucketSize, List.countP_append]
  · rw [hm.length, hm.bucketSize]
    rcases List.mem_append.mp hv with hv | hv
    · exact hx'.within v hv
    · rw [← hm.length_eq, ← hwidth]
      exact hy'.within v hv

/-! ## The end of the loops -/

/-- One of the two loops of a merge goes on for ever. -/
def Diverges (h g : Histogram) : Prop :=
  h.Endless g.bucketSize ∨ ∃ h', h.widen g.bucketSize = .ok h' ∧ g.Endless h'.bucketSize

/-- A histogram without width that is to grow to one, and whose counts never overflow. -/
def Stuck (h : Histogram) (width : Nat) : Prop :=
  h.bucketSize = 0 ∧ 0 < width ∧ h.buckets.sum < Word.bound

section

variable (hlen : h.buckets.length = g.buckets.length) (heven : h.buckets.length % 2 = 0)
  (hn : h.buckets.length < Word.bound)

include hlen heven hn

theorem diverges_iff : h.Diverges g ↔ h.Stuck g.bucketSize ∨ g.Stuck h.bucketSize := by
  have hg {width : Nat} : g.Endless width ↔ g.Stuck width := endless_iff (hlen ▸ hn) (hlen ▸ heven)
  rw [Diverges, endless_iff hn heven]
  refine or_congr_right ⟨?_, fun hstuck => ?_⟩
  · rintro ⟨h', hh, hendless⟩
    obtain ⟨hzero, hpos, hsum⟩ := hg.mp hendless
    obtain rfl := Except.ok.inj ((widen_of_le (by omega)).symm.trans hh)
    exact ⟨hzero, hpos, hsum⟩
  · exact ⟨h, widen_of_le (by rw [hstuck.1]; exact Nat.zero_le _), hg.mpr hstuck⟩

/-- The fuel of a merge is spent on loops that go on for ever, and on no others. -/
theorem merge_eq_endless_iff : h.merge g = .error .endlessGrowth ↔ h.Diverges g := by
  have hh : h.widen g.bucketSize = .error .endlessGrowth ↔ h.Endless g.bucketSize := widen_eq_endless_iff hn heven
  have hg {width : Nat} : g.widen width = .error .endlessGrowth ↔ g.Endless width :=
    widen_eq_endless_iff (hlen ▸ hn) (hlen ▸ heven)
  rw [Diverges, ← hh, merge, if_pos hlen]
  show (h.widen g.bucketSize >>= _) = _ ↔ _
  cases h.widen g.bucketSize with
  | error e => simp
  | ok h' =>
    rw [Sim.ok_bind]
    simp only [reduceCtorEq, false_or, Except.ok.injEq, exists_eq_left', ← hg]
    cases g.widen h'.bucketSize with
    | error e => rfl
    | ok g' =>
      rw [Sim.ok_bind]
      refine iff_of_false ?_ (ok_ne_endless g')
      exact bind_ne_endless (addCounts_ne_endless _ _) fun _ =>
        bind_ne_endless (add_ne_endless _ _) fun _ => ok_ne_endless _

end

/-! ## One resolution -/

/-- The merge of two histograms comes to an end and adds counts of like buckets only. -/
structure MergesAlike (h g : Histogram) : Prop where
  ends : ¬ h.Diverges g
  /-- When the counts are added, both operands are as wide as the result. -/
  alike : ∀ f, h.merge g = .ok f → ∃ h' g', h.widen g.bucketSize = .ok h' ∧ g.widen h'.bucketSize = .ok g' ∧
    h'.bucketSize = f.bucketSize ∧ g'.bucketSize = f.bucketSize
  /-- The result counts the values of both, each in the range of its bucket. -/
  ranges : ∀ f xs ys, h.merge g = .ok f → h.Tallied xs → g.Tallied ys → f.Tallied (xs ++ ys)

theorem mergesAlike_of_meet (hends : ¬ h.Diverges g)
    (hmeet : ∀ f, h.merge g = .ok f → MeetByDoubling h.bucketSize g.bucketSize) : h.MergesAlike g where
  ends := hends
  alike f hf := by
    obtain ⟨h', g', hm⟩ := merged_of_merge hf
    have hwidth := (width_eq_iff hm.left hm.right).mpr (hmeet f hf)
    exact ⟨h', g', hm.left, hm.right, hm.bucketSize.symm, hwidth.trans hm.bucketSize.symm⟩
  ranges f xs ys hf hx hy := by
    obtain ⟨h', g', hm⟩ := merged_of_merge hf
    exact hm.tallied ((width_eq_iff hm.left hm.right).mpr (hmeet f hf)) hx hy

/-- Whatever samples and merges made two histograms, they merge at one resolution. -/
theorem Reachable.mergesAlike {n : Nat} (hh : Reachable n h) (hg : Reachable n g) : h.MergesAlike g := by
  obtain ⟨hn, xs, hx⟩ := hh.exists_values
  obtain ⟨-, ys, hy⟩ := hg.exists_values
  obtain ⟨he, h2⟩ := even_of_ofValues? hx
  obtain ⟨-, -, k, hk, -⟩ := summarizes_of_ofValues? he h2 hn hx
  obtain ⟨-, -, j, hj, -⟩ := summarizes_of_ofValues? he h2 hn hy
  have hlen : h.buckets.length = n := by rw [hk.buckets, length_tallies]
  have hlen' : g.buckets.length = n := by rw [hj.buckets, length_tallies]
  have hwide : ∀ i, 2 ^ i ≠ 0 := fun i => Nat.ne_of_gt (Nat.two_pow_pos i)
  refine mergesAlike_of_meet ?_ fun f _ => ?_
  · rw [diverges_iff (hlen.trans hlen'.symm) (hlen ▸ he) (hlen ▸ hn)]
    rintro (hstuck | hstuck)
    · exact hwide k (hk.bucketSize.symm.trans hstuck.1)
    · exact hwide j (hj.bucketSize.symm.trans hstuck.1)
  · rw [hk.bucketSize, hj.bucketSize]
    rcases Nat.le_total k j with hkj | hkj
    · exact ⟨j - k, .inr (by rw [← Nat.pow_add, Nat.add_sub_cancel' hkj])⟩
    · exact ⟨k - j, .inl (by rw [← Nat.pow_add, Nat.add_sub_cancel' hkj])⟩

/-- Histograms of one even number of buckets merge at one resolution unless one of them
is stuck, or the counts can be added although no doubling makes the widths equal.  The
loops end or not whatever the fuel is. -/
theorem mergesAlike_iff (hlen : h.buckets.length = g.buckets.length) (heven : h.buckets.length % 2 = 0)
    (hn : h.buckets.length < Word.bound) :
    (h.merge g = .error .endlessGrowth ↔ h.Diverges g) ∧
      (h.MergesAlike g ↔ ¬ h.Stuck g.bucketSize ∧ ¬ g.Stuck h.bucketSize ∧
        ∀ f, h.merge g = .ok f → MeetByDoubling h.bucketSize g.bucketSize) := by
  refine ⟨merge_eq_endless_iff hlen heven hn, ?_⟩
  rw [← and_assoc, ← not_or, ← diverges_iff hlen heven hn]
  constructor
  · intro halike
    refine ⟨halike.ends, fun f hf => ?_⟩
    obtain ⟨h', g', hh, hg, hwh, hwg⟩ := halike.alike f hf
    exact (width_eq_iff hh hg).mp (hwg.trans hwh.symm)
  · rintro ⟨hends, hmeet⟩
    exact mergesAlike_of_meet hends hmeet

/-- Eight buckets of width two, in which the value twelve was counted. -/
def twelve : Histogram :=
  { buckets := [0, 0, 0, 0, 0, 0, 1, 0], bucketSize := 2, samples := 1, sum := 12, min := some 12, max := some 12 }

/-- Eight buckets of some width, in which no value was counted. -/
def blank (width : Nat) : Histogram :=
  { buckets := List.replicate 8 0, bucketSize := width, samples := 0, sum := 0, min := none, max := none }

theorem mergesAlike_of_two_eight :
    twelve.buckets.length = (blank 8).buckets.length ∧ twelve.buckets.length % 2 = 0 ∧
      twelve.buckets.length < Word.bound ∧ twelve.MergesAlike (blank 8) := by
  have hiff := (mergesAlike_iff (h := twelve) (g := blank 8) rfl rfl (by decide)).2
  refine ⟨rfl, rfl, by decide, hiff.mpr ⟨?_, ?_, fun _ _ => ⟨2, .inr rfl⟩⟩⟩
  · exact fun hstuck => absurd hstuck.1 (by decide)
  · exact fun hstuck => absurd hstuck.1 (by decide)

theorem tallied_blank (width : Nat) : (blank width).Tallied [] :=
  ⟨fun i => getD_append_zeros [] 8 i, nofun⟩

theorem tallied_twelve : twelve.Tallied [12] where
  count
    | 0 | 1 | 2 | 3 | 4 | 5 | 6 | 7 => rfl
    | i + 8 => by
      have hfar : ¬ (i + 8) * 2 ≤ 12 := by omega
      simp [twelve, hfar]
  within v hv := by
    obtain rfl := List.mem_singleton.mp hv
    decide

/-- Documents give histograms that do not merge at one resolution.  Of widths three and
two the result counts twelve among the values from nine up to eleven, and of widths zero
and one there is no result. -/
theorem merge_of_unlike_widths :
    (∀ h ∈ [blank 3, twelve, blank 0, blank 1], ofDocument? h.toDocument = some h ∧ h.buckets.length = 8) ∧
      (∃ f, (blank 3).merge twelve = .ok f ∧ f.bucketSize = 3 ∧ f.buckets = [0, 0, 0, 1, 0, 0, 0, 0] ∧
        (blank 3).Tallied [] ∧ twelve.Tallied [12] ∧ ¬ f.Tallied [12]) ∧
      ¬ (blank 3).MergesAlike twelve ∧ (blank 0).Diverges (blank 1) ∧ ¬ (blank 0).MergesAlike (blank 1) := by
  have hmerge : (blank 3).merge twelve =
      .ok { twelve with bucketSize := 3, buckets := [0, 0, 0, 1, 0, 0, 0, 0] } := rfl
  have hends : (blank 0).Diverges (blank 1) :=
    (diverges_iff (h := blank 0) (g := blank 1) rfl rfl (by decide)).mpr (.inl ⟨rfl, by decide, by decide⟩)
  have hwrong : ¬ ({ twelve with bucketSize := 3, buckets := [0, 0, 0, 1, 0, 0, 0, 0] } : Histogram).Tallied [12] :=
    fun ht => absurd (ht.count 3) (by decide)
  refine ⟨by decide, ⟨_, hmerge, rfl, rfl, tallied_blank 3, tallied_twelve, hwrong⟩, fun halike => ?_, hends,
    fun halike => halike.ends hends⟩
  exact hwrong (halike.ranges _ [] [12] hmerge (tallied_blank 3) tallied_twelve)

end CacheSim.Histogram
