import CacheSim.Proofs.Stats.Reach
import Mathlib.Data.List.GetD

/-!
# Doubling the width of a histogram

A histogram that was read from a document may have buckets of any width, also of none.
One step of growing doubles the width and adds neighbours (`Doubled`); many steps are
`grown`, and what they leave of the width and of the counts is said here.

A loop of growing that ends does so after the first step that made the histogram wide
enough (`exists_grown_of_growWhile`).  It never ends (`Endless`) for buckets of no width
whose counts can be added without overflow, and for no others (`endless_iff`).  These are
the histograms that spend the fuel of the loop (`widen_eq_endless_iff`), so that nothing
depends on how much fuel there is.
-/

namespace CacheSim.Histogram

variable {h g k : Histogram} {width i : Nat}

/-! ## One step -/

/-- A histogram whose buckets were merged in pairs. -/
structure Doubled (h g : Histogram) : Prop where
  bucketSize : g.bucketSize = h.bucketSize * 2
  length : g.buckets.length = h.buckets.length
  count : ∀ i, g.buckets.getD i 0 = h.buckets.getD (2 * i) 0 + h.buckets.getD (2 * i + 1) 0
  sum : g.buckets.sum = h.buckets.sum
  /-- The width and the counts are words again. -/
  width_lt : g.bucketSize < Word.bound
  count_lt : ∀ i, g.buckets.getD i 0 < Word.bound

theorem getD_pairSums (n : Nat) : ∀ {counts sums : List Nat}, pairSums n counts = .ok sums →
    ∀ i, sums.getD i 0 = counts.getD (2 * i) 0 + counts.getD (2 * i + 1) 0 ∧ sums.getD i 0 < Word.bound
  | [], _, h, i => by
    obtain rfl := Except.ok.inj h
    exact ⟨rfl, Nat.two_pow_pos 64⟩
  | a :: b :: rest, _, h, i => by
    obtain ⟨s, hs, h⟩ := Sim.bind_eq_ok.mp h
    obtain ⟨sums, hsums, h⟩ := Sim.bind_eq_ok.mp h
    obtain rfl := Except.ok.inj h
    obtain ⟨hlt, rfl⟩ := Word.add_eq_ok.mp hs
    cases i with
    | zero => exact ⟨rfl, hlt⟩
    | succ i => exact getD_pairSums n hsums i

theorem getD_append_zeros (counts : List Nat) (n i : Nat) :
    (counts ++ List.replicate n 0).getD i 0 = counts.getD i 0 := by
  rcases Nat.lt_or_ge i counts.length with hlt | hge
  · rw [List.getD_append _ _ _ _ hlt]
  · rw [List.getD_append_right _ _ _ _ hge, List.getD_eq_default _ _ hge, List.getD_eq_getElem?_getD,
      List.getElem?_replicate]
    split <;> rfl

theorem doubled_of_grow (hg : h.grow = .ok g) : h.Doubled g := by
  rw [grow_eq] at hg
  obtain ⟨sums, hsums, hg⟩ := Sim.bind_eq_ok.mp hg
  obtain ⟨width, hwidth, hg⟩ := Sim.bind_eq_ok.mp hg
  obtain rfl := Except.ok.inj hg
  obtain ⟨hsum, hlen⟩ := pairSums_spec _ hsums
  obtain ⟨hlt, rfl⟩ := Word.mul_eq_ok.mp hwidth
  refine ⟨rfl, ?_, fun i => ?_, ?_, hlt, fun i => ?_⟩
  · rw [List.length_append, List.length_replicate]
    omega
  · rw [getD_append_zeros]
    exact (getD_pairSums _ hsums i).1
  · rw [List.sum_append, List.sum_replicate_nat, Nat.mul_zero, hsum, Nat.add_zero]
  · rw [getD_append_zeros]
    exact (getD_pairSums _ hsums i).2

theorem bind_ne_endless {α β : Type} {x : Except Fault α} {f : α → Except Fault β}
    (hx : x ≠ .error .endlessGrowth) (hf : ∀ a, f a ≠ .error .endlessGrowth) : x >>= f ≠ .error .endlessGrowth := by
  cases x with
  | error e => exact fun heq => hx (congrArg _ (Except.error.inj heq))
  | ok a => exact hf a

theorem ok_ne_endless {α : Type} (a : α) : (.ok a : Except Fault α) ≠ .error .endlessGrowth := by
  intro heq
  cases heq

theorem add_ne_endless (a b : Nat) : Word.add a b ≠ .error .endlessGrowth :=
  fun heq => nomatch (Word.add_eq_error.mp heq).2

theorem mul_ne_endless (a b : Nat) : Word.mul a b ≠ .error .endlessGrowth :=
  fun heq => nomatch (Word.mul_eq_error.mp heq).2

theorem pairSums_ne_endless (n : Nat) (counts : List Nat) : pairSums n counts ≠ .error .endlessGrowth := by
  fun_induction pairSums n counts with
  | case1 => exact ok_ne_endless _
  | case2 => nofun
  | case3 a b rest ih => exact bind_ne_endless (add_ne_endless a b) fun _ => bind_ne_endless ih fun _ => ok_ne_endless _

/-- Growing stops for a number that is no word, never for want of a step. -/
theorem grow_ne_endless (h : Histogram) : h.grow ≠ .error .endlessGrowth := by
  rw [grow_eq]
  exact bind_ne_endless (pairSums_ne_endless _ _) fun _ => bind_ne_endless (mul_ne_endless _ _) fun _ => ok_ne_endless _

/-! ## Many steps -/

theorem grown_succ (i : Nat) (h : Histogram) : grown (i + 1) h = grown i h >>= grow := by
  induction i generalizing h with
  | zero =>
    show h.grow >>= grown 0 = h.grow
    cases h.grow <;> rfl
  | succ i ih =>
    show h.grow >>= grown (i + 1) = (h.grow >>= grown i) >>= grow
    cases h.grow with
    | error e => rfl
    | ok k => exact ih k

theorem grown_succ_of_grow (hk : h.grow = .ok k) (i : Nat) : grown (i + 1) h = grown i k := by
  rw [grown, hk, Sim.ok_bind]

/-- What every step keeps, many steps keep. -/
theorem grown_keeps {P : Histogram → Prop} (hg : grown i h = .ok g) (hh : P h)
    (hstep : ∀ {f k : Histogram}, f.Doubled k → P f → P k) : P g := by
  induction i generalizing h with
  | zero =>
    obtain rfl := Except.ok.inj hg
    exact hh
  | succ i ih =>
    obtain ⟨k, hk, hg⟩ := Sim.bind_eq_ok.mp hg
    exact ih hg (hstep (doubled_of_grow hk) hh)

theorem length_of_grown (hg : grown i h = .ok g) : g.buckets.length = h.buckets.length :=
  grown_keeps (P := (·.buckets.length = h.buckets.length)) hg rfl fun hd hf => hd.length.trans hf

theorem sum_of_grown (hg : grown i h = .ok g) : g.buckets.sum = h.buckets.sum :=
  grown_keeps (P := (·.buckets.sum = h.buckets.sum)) hg rfl fun hd hf => hd.sum.trans hf

theorem bucketSize_of_grown (hg : grown i h = .ok g) : g.bucketSize = h.bucketSize * 2 ^ i := by
  induction i generalizing g with
  | zero =>
    obtain rfl := Except.ok.inj hg
    rw [Nat.pow_zero, Nat.mul_one]
  | succ i ih =>
    rw [grown_succ] at hg
    obtain ⟨k, hk, hg⟩ := Sim.bind_eq_ok.mp hg
    rw [(doubled_of_grow hg).bucketSize, ih hk, Nat.pow_succ, Nat.mul_assoc]

/-- After some steps all counts are in the buckets that so many doublings leave. -/
theorem getD_of_grown (hg : grown i h = .ok g) {place : Nat} (hplace : h.buckets.length ≤ place * 2 ^ i) :
    g.buckets.getD place 0 = 0 := by
  induction i generalizing g place with
  | zero =>
    obtain rfl := Except.ok.inj hg
    exact List.getD_eq_default _ _ (by omega)
  | succ i ih =>
    rw [grown_succ] at hg
    obtain ⟨k, hk, hg⟩ := Sim.bind_eq_ok.mp hg
    have hdouble : place * 2 ^ (i + 1) = 2 * place * 2 ^ i := by
      rw [Nat.pow_succ, ← Nat.mul_assoc, Nat.mul_comm 2 place, Nat.mul_right_comm]
    have hnextle : h.buckets.length ≤ (2 * place + 1) * 2 ^ i :=
      Nat.le_trans (hdouble ▸ hplace) (Nat.mul_le_mul_right _ (Nat.le_succ _))
    rw [(doubled_of_grow hg).count, ih hk (hdouble ▸ hplace), ih hk hnextle]

/-! ## The loop -/

/-- A loop that ends does so after the steps before which the histogram was too small. -/
theorem exists_grown_of_growWhile {tooSmall : Histogram → Except Fault Bool} {fuel : Nat}
    (hg : growWhile tooSmall fuel h = .ok g) :
    ∃ i < fuel, grown i h = .ok g ∧ tooSmall g = .ok false ∧
      ∀ j < i, ∃ f, grown j h = .ok f ∧ tooSmall f = .ok true := by
  induction fuel generalizing h with
  | zero => cases hg
  | succ fuel ih =>
    obtain ⟨small, hsmall, hg⟩ := Sim.bind_eq_ok.mp hg
    cases small with
    | true =>
      obtain ⟨k, hk, hg⟩ := Sim.bind_eq_ok.mp hg
      obtain ⟨i, hi, hgrown, hdone, hbefore⟩ := ih hg
      refine ⟨i + 1, by omega, (grown_succ_of_grow hk i).trans hgrown, hdone, fun j hj => ?_⟩
      cases j with
      | zero => exact ⟨h, rfl, hsmall⟩
      | succ j =>
        obtain ⟨f, hf, hfsmall⟩ := hbefore j (by omega)
        exact ⟨f, (grown_succ_of_grow hk j).trans hf, hfsmall⟩
    | false =>
      obtain rfl := Except.ok.inj hg
      exact ⟨0, by omega, rfl, hsmall, fun j hj => absurd hj (Nat.not_lt_zero j)⟩

/-- A loop runs out of fuel if the histogram is too small after every step and can grow. -/
theorem growWhile_eq_endless_iff {tooSmall : Histogram → Bool} {fuel : Nat} :
    growWhile (fun h => .ok (tooSmall h)) fuel h = .error .endlessGrowth ↔
      (∀ j < fuel, ∃ f, grown j h = .ok f ∧ tooSmall f = true) ∧ ∃ f, grown fuel h = .ok f := by
  induction fuel generalizing h with
  | zero => exact iff_of_true rfl ⟨fun j hj => absurd hj (Nat.not_lt_zero j), h, rfl⟩
  | succ fuel ih =>
    rw [growWhile, Sim.ok_bind]
    cases hsmall : tooSmall h with
    | false =>
      refine iff_of_false (ok_ne_endless h) ?_
      rintro ⟨hall, -⟩
      obtain ⟨f, hf, hfsmall⟩ := hall 0 (Nat.succ_pos fuel)
      obtain rfl := Except.ok.inj hf
      rw [hsmall] at hfsmall
      cases hfsmall
    | true =>
      rw [if_pos rfl]
      cases hk : h.grow with
      | error e =>
        -- The fuel is one step at least, and there is not even one.
        refine iff_of_false (fun heq => grow_ne_endless h (hk.trans heq)) ?_
        rintro ⟨-, f, hf⟩
        rw [grown, hk] at hf
        cases hf
      | ok k =>
        rw [Sim.ok_bind, ih, grown_succ_of_grow hk]
        refine and_congr_left' ⟨fun hall j hj => ?_, fun hall j hj => ?_⟩
        · cases j with
          | zero => exact ⟨h, rfl, hsmall⟩
          | succ j =>
            rw [grown_succ_of_grow hk]
            exact hall j (Nat.lt_of_succ_lt_succ hj)
        · rw [← grown_succ_of_grow hk]
          exact hall (j + 1) (Nat.succ_lt_succ hj)

/-! ## Loops without end -/

/-- The histogram is narrower than `width` however often it grows. -/
def Endless (h : Histogram) (width : Nat) : Prop :=
  ∀ i, ∃ f, grown i h = .ok f ∧ f.bucketSize < width

theorem pairSums_of_even (n : Nat) : ∀ counts : List Nat, counts.length % 2 = 0 → counts.sum < Word.bound →
    ∃ sums, pairSums n counts = .ok sums
  | [], _, _ => ⟨[], rfl⟩
  | [_], heven, _ => absurd heven Nat.one_ne_zero
  | a :: b :: rest, heven, hsum => by
    rw [List.sum_cons, List.sum_cons] at hsum
    have hadd : Word.add a b = .ok (a + b) := Word.add_eq_ok.mpr ⟨by omega, rfl⟩
    obtain ⟨sums, hsums⟩ := pairSums_of_even n rest ((Nat.add_mod_right _ 2).symm.trans heven) (by omega)
    exact ⟨(a + b) :: sums, by rw [pairSums, hadd, Sim.ok_bind, hsums, Sim.ok_bind]; rfl⟩

/-- Buckets of no width can always grow, if a word holds the sum of their counts. -/
theorem exists_grown_of_zero (hzero : h.bucketSize = 0) (heven : h.buckets.length % 2 = 0)
    (hsum : h.buckets.sum < Word.bound) (i : Nat) : ∃ f, grown i h = .ok f := by
  induction i with
  | zero => exact ⟨h, rfl⟩
  | succ i ih =>
    obtain ⟨k, hk⟩ := ih
    have hwidth : k.bucketSize = 0 := by rw [bucketSize_of_grown hk, hzero, Nat.zero_mul]
    obtain ⟨sums, hsums⟩ := pairSums_of_even k.buckets.length k.buckets
      ((length_of_grown hk).symm ▸ heven) ((sum_of_grown hk).symm ▸ hsum)
    have hmul : Word.mul k.bucketSize 2 = .ok 0 := by rw [hwidth]; rfl
    refine ⟨{ k with buckets := sums ++ List.replicate (k.buckets.length - sums.length) 0, bucketSize := 0 }, ?_⟩
    rw [grown_succ, hk, Sim.ok_bind, grow_eq, hsums, Sim.ok_bind, hmul, Sim.ok_bind]

/-- No width but zero doubles as often as a word has bits. -/
theorem bucketSize_eq_zero_of_grown (hg : grown 64 h = .ok g) : h.bucketSize = 0 := by
  rw [grown_succ 63] at hg
  obtain ⟨k, hk, hg⟩ := Sim.bind_eq_ok.mp hg
  have hlt := (doubled_of_grow hg).width_lt
  rw [(doubled_of_grow hg).bucketSize, bucketSize_of_grown hk, Nat.mul_assoc, ← Nat.pow_succ] at hlt
  exact Nat.eq_zero_of_not_pos fun hpos => Nat.not_lt.mpr (Nat.le_mul_of_pos_left _ hpos) hlt

theorem sum_eq_getD_zero {counts : List Nat} (hrest : ∀ i, counts.getD (i + 1) 0 = 0) :
    counts.sum = counts.getD 0 0 := by
  cases counts with
  | nil => rfl
  | cons count rest =>
    have hzero : rest.sum = 0 := List.sum_eq_zero fun c hc => by
      obtain ⟨i, hi, rfl⟩ := List.getElem_of_mem hc
      exact (List.getD_eq_getElem rest 0 hi).symm.trans (hrest i)
    rw [List.sum_cons, hzero]
    rfl

/-- As many steps leave all counts in the first bucket, where a word holds them. -/
theorem sum_lt_of_grown (hn : h.buckets.length < Word.bound) (hg : grown 64 h = .ok g) :
    h.buckets.sum < Word.bound := by
  have hrest : ∀ i, g.buckets.getD (i + 1) 0 = 0 := fun i =>
    getD_of_grown hg (Nat.le_trans (Nat.le_of_lt hn) (Nat.le_mul_of_pos_left _ (Nat.succ_pos i)))
  rw [← sum_of_grown hg, sum_eq_getD_zero hrest]
  obtain ⟨k, -, hg⟩ := Sim.bind_eq_ok.mp (grown_succ 63 h ▸ hg)
  exact (doubled_of_grow hg).count_lt 0

theorem endless_of_grown (hn : h.buckets.length < Word.bound) (heven : h.buckets.length % 2 = 0)
    (hg : grown 64 h = .ok g) (hwidth : 0 < width) : h.Endless width := fun i => by
  have hzero := bucketSize_eq_zero_of_grown hg
  obtain ⟨f, hf⟩ := exists_grown_of_zero hzero heven (sum_lt_of_grown hn hg) i
  exact ⟨f, hf, by rwa [bucketSize_of_grown hf, hzero, Nat.zero_mul]⟩

theorem endless_iff (hn : h.buckets.length < Word.bound) (heven : h.buckets.length % 2 = 0) :
    h.Endless width ↔ h.bucketSize = 0 ∧ 0 < width ∧ h.buckets.sum < Word.bound := by
  constructor
  · intro hendless
    obtain ⟨g, hg, hlt⟩ := hendless 64
    exact ⟨bucketSize_eq_zero_of_grown hg, Nat.zero_lt_of_lt hlt, sum_lt_of_grown hn hg⟩
  · rintro ⟨hzero, hwidth, hsum⟩
    obtain ⟨g, hg⟩ := exists_grown_of_zero hzero heven hsum 64
    exact endless_of_grown hn heven hg hwidth

/-- The loop spends its fuel on a histogram that never gets wide enough, and on no other. -/
theorem widen_eq_endless_iff (hn : h.buckets.length < Word.bound) (heven : h.buckets.length % 2 = 0) :
    h.widen width = .error .endlessGrowth ↔ h.Endless width := by
  rw [widen, growWhile_eq_endless_iff]
  simp only [decide_eq_true_eq]
  constructor
  · rintro ⟨hnarrow, -⟩
    obtain ⟨g, hg, hlt⟩ := hnarrow 64 (Nat.lt_succ_self 64)
    exact endless_of_grown hn heven hg (Nat.zero_lt_of_lt hlt)
  · intro hendless
    obtain ⟨g, hg, -⟩ := hendless doublings
    exact ⟨fun j _ => hendless j, g, hg⟩

end CacheSim.Histogram
