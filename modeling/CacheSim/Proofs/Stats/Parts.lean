import CacheSim.Proofs.Stats.Merge
import CacheSim.Stats.Counters

/-!
# Statistics of parts

Statistics are collected from what a cache counts, one observation after another
(`CacheStats.collect`).  If they are collected in parts, and the parts are put
together in any order and grouping, the sum is what is collected in one go
(`merged_as_collected`): both stand for the same observations
(`represents_collect`, `represents_total`), and those determine the statistics
(`Represents.unique`).
-/

namespace CacheSim

/-- What a cache counts. -/
inductive Observation where
  | hit
  | miss
  /-- The block of a miss came after so many ticks. -/
  | latency (ticks : Nat)
  deriving DecidableEq

/-- The latencies among observations. -/
def latencies (os : List Observation) : List Nat :=
  os.filterMap fun
    | .latency ticks => some ticks
    | _ => none

theorem latencies_append (as bs : List Observation) : latencies (as ++ bs) = latencies as ++ latencies bs :=
  List.filterMap_append

/-- Observations that can be counted: words hold the numbers of hits, misses and
latencies, and every latency lies within the reach of 16 buckets. -/
structure Countable (os : List Observation) : Prop where
  hits : os.count .hit < Word.bound
  misses : os.count .miss < Word.bound
  latencies : (latencies os).length < Word.bound
  takeable : ∀ ticks ∈ CacheSim.latencies os, ticks < Histogram.reach 16

variable {as bs os : List Observation}

theorem Countable.of_append (h : Countable (as ++ bs)) : Countable as ∧ Countable bs := by
  obtain ⟨hhits, hmisses, hlatencies, htakeable⟩ := h
  simp only [List.count_append, latencies_append, List.length_append] at hhits hmisses hlatencies
  rw [latencies_append] at htakeable
  refine ⟨⟨by omega, by omega, by omega, fun t ht => ?_⟩, ⟨by omega, by omega, by omega, fun t ht => ?_⟩⟩
  · exact htakeable t (List.mem_append_left _ ht)
  · exact htakeable t (List.mem_append_right _ ht)

theorem Countable.perm (h : Countable as) (hp : bs.Perm as) : Countable bs where
  hits := (hp.count_eq _).symm ▸ h.hits
  misses := (hp.count_eq _).symm ▸ h.misses
  latencies := (hp.filterMap _).length_eq.symm ▸ h.latencies
  takeable ticks ht := h.takeable ticks ((hp.filterMap _).mem_iff.mp ht)

theorem countable_nil : Countable [] :=
  ⟨by decide, by decide, by decide, by simp [latencies]⟩

/-- Whether one observation more can be counted. -/
def Countable.Room (os : List Observation) : Observation → Prop
  | .hit => os.count .hit + 1 < Word.bound
  | .miss => os.count .miss + 1 < Word.bound
  | .latency ticks => (CacheSim.latencies os).length + 1 < Word.bound ∧ ticks < Histogram.reach 16

theorem countable_concat_iff {o : Observation} : Countable (os ++ [o]) ↔ Countable os ∧ Countable.Room os o := by
  constructor
  · intro h
    refine ⟨h.of_append.1, ?_⟩
    obtain ⟨hhits, hmisses, hlatencies, htakeable⟩ := h
    cases o with
    | hit => simpa [Countable.Room] using hhits
    | miss => simpa [Countable.Room] using hmisses
    | latency ticks =>
      exact ⟨by simpa [latencies] using hlatencies, htakeable ticks (by simp [latencies])⟩
  · rintro ⟨⟨hhits, hmisses, hlatencies, htakeable⟩, hroom⟩
    cases o with
    | hit => exact ⟨by simpa [Countable.Room] using hroom, by simpa using hmisses, by simpa [latencies] using hlatencies,
        by simpa [latencies] using htakeable⟩
    | miss => exact ⟨by simpa using hhits, by simpa [Countable.Room] using hroom, by simpa [latencies] using hlatencies,
        by simpa [latencies] using htakeable⟩
    | latency ticks =>
      refine ⟨by simpa using hhits, by simpa using hmisses, by simpa [latencies] using hroom.1, fun t ht => ?_⟩
      rw [latencies_append] at ht
      rcases List.mem_append.mp ht with ht | ht
      · exact htakeable t ht
      · obtain rfl : t = ticks := by simpa [latencies] using ht
        exact hroom.2

namespace CacheStats

variable {s t u : CacheStats}

/-- Counts one more observation. -/
def observe (s : CacheStats) : Observation → Except Fault CacheStats
  | .hit => do
    let hits ← Word.add s.hits 1
    return { s with hits }
  | .miss => do
    let misses ← Word.add s.misses 1
    return { s with misses }
  | .latency ticks => do
    let missLatency ← s.missLatency.sample ticks
    return { s with missLatency }

/-- The statistics of observations, collected in one go. -/
def collect (os : List Observation) : Except Fault CacheStats :=
  os.foldlM observe {}

/-- The statistics count the observations. -/
structure Describes (s : CacheStats) (os : List Observation) : Prop where
  hits : s.hits = os.count .hit
  misses : s.misses = os.count .miss
  missLatency : s.missLatency.Summarizes 16 (latencies os)

theorem describes_nil : ({} : CacheStats).Describes [] :=
  ⟨rfl, rfl, 0, Histogram.holds_empty 16, fun _ _ => Nat.zero_le _⟩

/-- Observations, counted alike, determine the statistics; their order does not matter. -/
theorem Describes.unique (hs : s.Describes as) (ht : t.Describes bs) (hp : bs.Perm as) : t = s := by
  obtain ⟨hhits, hmisses, hlatency⟩ := hs
  obtain ⟨hhits', hmisses', hlatency'⟩ := ht
  obtain ⟨_, _, _⟩ := s
  obtain ⟨_, _, _⟩ := t
  simp only [mk.injEq]
  refine ⟨hhits'.trans ((hp.count_eq _).trans hhits.symm), hmisses'.trans ((hp.count_eq _).trans hmisses.symm), ?_⟩
  exact hlatency.unique hlatency' (hp.filterMap _)

/-- A result stands for observations: it is there if they can be counted, and counts
them. -/
structure Represents (x : Except Fault CacheStats) (os : List Observation) : Prop where
  exists_ok : Countable os → ∃ s, x = .ok s ∧ s.Describes os
  countable : ∀ s, x = .ok s → Countable os

theorem Represents.describes {x : Except Fault CacheStats} (h : Represents x os) (hx : x = .ok s) :
    s.Describes os := by
  obtain ⟨t, ht, hd⟩ := h.exists_ok (h.countable s hx)
  obtain rfl := Except.ok.inj (hx.symm.trans ht)
  exact hd

/-- What is done with statistics that stand for fewer observations. -/
theorem Represents.bind {x : Except Fault CacheStats} {f : CacheStats → Except Fault CacheStats}
    (hx : Represents x as) (hsub : Countable bs → Countable as)
    (hf : ∀ s, s.Describes as → Countable as → Represents (f s) bs) : Represents (x >>= f) bs where
  exists_ok hc := by
    obtain ⟨s, rfl, hs⟩ := hx.exists_ok (hsub hc)
    exact (hf s hs (hsub hc)).exists_ok hc
  countable t ht := by
    obtain ⟨s, hs, ht⟩ := Sim.bind_eq_ok.mp ht
    exact (hf s (hx.describes hs) (hx.countable s hs)).countable t ht

/-- Results that stand for the same observations are the same, or both faults. -/
theorem Represents.unique {x y : Except Fault CacheStats} (hx : Represents x as) (hy : Represents y bs)
    (hp : bs.Perm as) : y.toOption = x.toOption := by
  cases x with
  | ok s =>
    obtain ⟨t, rfl, ht⟩ := hy.exists_ok ((hx.countable s rfl).perm hp)
    rw [(hx.describes rfl).unique ht hp]
  | error e =>
    cases y with
    | ok t =>
      obtain ⟨s, hs, -⟩ := hx.exists_ok ((hy.countable t rfl).perm hp.symm)
      cases hs
    | error e => rfl

/-! ## One observation more -/

/-- What is done for one observation more answers as long as there is room for it. -/
theorem Represents.of_room {x : Except Fault CacheStats} {o : Observation} (hc : Countable os)
    (hok : Countable.Room os o → ∃ t, x = .ok t ∧ t.Describes (os ++ [o]))
    (hroom : ∀ t, x = .ok t → Countable.Room os o) : Represents x (os ++ [o]) where
  exists_ok h := hok (countable_concat_iff.mp h).2
  countable t ht := countable_concat_iff.mpr ⟨hc, hroom t ht⟩

/-- Statistics stand for one observation more after it was counted. -/
theorem Describes.represents_observe (hs : s.Describes os) (hc : Countable os) (o : Observation) :
    Represents (s.observe o) (os ++ [o]) := by
  obtain ⟨hhits, hmisses, hlatency⟩ := hs
  cases o with
  | hit =>
    refine .of_room hc (fun hroom => ?_) fun t ht => ?_
    · have hadd : Word.add s.hits 1 = .ok (s.hits + 1) := Word.add_eq_ok.mpr ⟨hhits ▸ hroom, rfl⟩
      exact ⟨_, by rw [observe, hadd]; rfl, by simp [hhits], by simp [hmisses], by simpa [latencies] using hlatency⟩
    · obtain ⟨hits, hadd, -⟩ := Sim.bind_eq_ok.mp ht
      rw [Countable.Room, ← hhits]
      exact (Word.add_eq_ok.mp hadd).1
  | miss =>
    refine .of_room hc (fun hroom => ?_) fun t ht => ?_
    · have hadd : Word.add s.misses 1 = .ok (s.misses + 1) := Word.add_eq_ok.mpr ⟨hmisses ▸ hroom, rfl⟩
      exact ⟨_, by rw [observe, hadd]; rfl, by simp [hhits], by simp [hmisses], by simpa [latencies] using hlatency⟩
    · obtain ⟨misses, hadd, -⟩ := Sim.bind_eq_ok.mp ht
      rw [Countable.Room, ← hmisses]
      exact (Word.add_eq_ok.mp hadd).1
  | latency ticks =>
    refine .of_room hc (fun ⟨hlen, hlt⟩ => ?_) fun t ht => ?_
    · obtain ⟨g, hg, hgs⟩ := hlatency.sample (by decide) (by decide) (Histogram.reach_lt (by decide) (by decide))
        hlen hc.takeable hlt
      exact ⟨_, by rw [observe, hg]; rfl, by simp [hhits], by simp [hmisses], by simpa [latencies] using hgs⟩
    · obtain ⟨g, hg, -⟩ := Sim.bind_eq_ok.mp ht
      exact hlatency.takeable_of_sample (by decide) (by decide) (by decide) hc.takeable hg

theorem represents_collect (os : List Observation) : Represents (collect os) os := by
  induction os using List.reverseRecOn with
  | nil => exact ⟨fun _ => ⟨{}, rfl, describes_nil⟩, fun _ _ => countable_nil⟩
  | append_singleton os o ih =>
    have hcollect : collect (os ++ [o]) = collect os >>= fun s => s.observe o := by simp [collect]
    rw [hcollect]
    exact ih.bind (fun h => h.of_append.1) fun s hs hc => hs.represents_observe hc o

/-! ## Parts -/

/-- Statistics of two parts together stand for the observations of both. -/
theorem Describes.represents_add (hs : s.Describes as) (ht : t.Describes bs) (ha : Countable as)
    (hb : Countable bs) : Represents (s.add t) (as ++ bs) := by
  obtain ⟨hhits, hmisses, hlatency⟩ := hs
  obtain ⟨hhits', hmisses', hlatency'⟩ := ht
  have hcount : ∀ o : Observation, (as ++ bs).count o = as.count o + bs.count o := fun o => List.count_append
  constructor
  · intro h
    have hlen := h.latencies
    rw [latencies_append, List.length_append] at hlen
    obtain ⟨f, hf, hfs⟩ := hlatency.merge hlatency' (by decide) (by decide) (by decide) ha.takeable hb.takeable hlen
    have hh : Word.add s.hits t.hits = .ok ((as ++ bs).count .hit) :=
      Word.add_eq_ok.mpr ⟨by rw [hhits, hhits', ← hcount]; exact h.hits, by rw [hhits, hhits', hcount]⟩
    have hm : Word.add s.misses t.misses = .ok ((as ++ bs).count .miss) :=
      Word.add_eq_ok.mpr ⟨by rw [hmisses, hmisses', ← hcount]; exact h.misses, by rw [hmisses, hmisses', hcount]⟩
    refine ⟨⟨_, _, f⟩, by rw [add, hh, hm, hf]; rfl, rfl, rfl, ?_⟩
    rw [latencies_append]
    exact hfs
  · intro u hu
    obtain ⟨hits, hh, hu⟩ := Sim.bind_eq_ok.mp hu
    obtain ⟨misses, hm, hu⟩ := Sim.bind_eq_ok.mp hu
    obtain ⟨f, hf, -⟩ := Sim.bind_eq_ok.mp hu
    have hlen := Histogram.samples_lt_of_merge hf
    obtain ⟨k, hk, -⟩ := hlatency
    obtain ⟨j, hj, -⟩ := hlatency'
    rw [hk.samples, hj.samples] at hlen
    refine ⟨?_, ?_, by rwa [latencies_append, List.length_append], fun ticks hticks => ?_⟩
    · rw [hcount, ← hhits, ← hhits']
      exact (Word.add_eq_ok.mp hh).1
    · rw [hcount, ← hmisses, ← hmisses']
      exact (Word.add_eq_ok.mp hm).1
    · rw [latencies_append] at hticks
      exact (List.mem_append.mp hticks).elim (ha.takeable ticks) (hb.takeable ticks)

/-- How the statistics of parts are put together. -/
inductive Grouping where
  | part (os : List Observation)
  | join (left right : Grouping)

namespace Grouping

/-- The observations of all parts. -/
def observations : Grouping → List Observation
  | part os => os
  | join left right => left.observations ++ right.observations

/-- The parts. -/
def parts : Grouping → List (List Observation)
  | part os => [os]
  | join left right => left.parts ++ right.parts

/-- The statistics of the parts, added up. -/
def total : Grouping → Except Fault CacheStats
  | part os => collect os
  | join left right => do
    let s ← left.total
    let t ← right.total
    s.add t

/-- The parts added up stand for all their observations. -/
theorem represents_total : ∀ t : Grouping, Represents t.total t.observations
  | part os => represents_collect os
  | join left right =>
    left.represents_total.bind (fun h => h.of_append.1) fun _ hs hl =>
      right.represents_total.bind (fun h => h.of_append.2) fun _ ht hr => hs.represents_add ht hl hr

/-- Parts that can all be counted can be counted together, if a word holds the number
of all observations. -/
theorem countable_observations : ∀ {t : Grouping}, (∀ part ∈ t.parts, (collect part).isOk) →
    t.observations.length < Word.bound → Countable t.observations
  | part os, h, _ => by
    obtain ⟨s, hs⟩ := Sim.exists_eq_ok (h os (List.mem_singleton.mpr rfl))
    exact (represents_collect os).countable s hs
  | join left right, h, hlen => by
    rw [observations, List.length_append] at hlen
    have hl := countable_observations (fun part hp => h part (List.mem_append_left _ hp)) (t := left) (by omega)
    have hr := countable_observations (fun part hp => h part (List.mem_append_right _ hp)) (t := right) (by omega)
    have hcount : ∀ o : Observation, (left.observations ++ right.observations).count o < Word.bound := fun o =>
      Nat.lt_of_le_of_lt List.count_le_length (by rwa [List.length_append])
    refine ⟨hcount _, hcount _, ?_, fun ticks ht => ?_⟩
    · exact Nat.lt_of_le_of_lt (List.length_filterMap_le _ _) (by rwa [observations, List.length_append])
    · rw [observations, latencies_append] at ht
      exact (List.mem_append.mp ht).elim (hl.takeable ticks) (hr.takeable ticks)

end Grouping

/-- Statistics added up from parts are those collected in one go. -/
structure AddsLikeCollecting : Prop where
  /-- In any order and grouping, the parts add up to the statistics collected in one
  go, or neither of the two can be counted. -/
  same : ∀ (t : Grouping) (os : List Observation), os.Perm t.observations →
    t.total.toOption = (collect os).toOption
  /-- Parts that can be counted add up, if a word holds the number of all observations. -/
  exists_total : ∀ t : Grouping, (∀ part ∈ t.parts, (collect part).isOk) → t.observations.length < Word.bound →
    ∃ s, t.total = .ok s ∧ ∀ os : List Observation, os.Perm t.observations → collect os = .ok s

theorem addsLikeCollecting : AddsLikeCollecting where
  same t os hp := ((represents_collect os).unique t.represents_total hp.symm)
  exists_total t hparts hlen := by
    have hc := Grouping.countable_observations hparts hlen
    obtain ⟨s, hs, hd⟩ := t.represents_total.exists_ok hc
    refine ⟨s, hs, fun os hp => ?_⟩
    obtain ⟨u, hu, hud⟩ := (represents_collect os).exists_ok (hc.perm hp)
    rw [hu, hd.unique hud hp]

/-- Merging histograms and adding up statistics keep what was counted: a merge takes
the values of both lists, so it is commutative and associative and has the histogram
without values as its unit, and parts of statistics add up to what is collected in one
go. -/
theorem merged_as_collected {n : Nat} (he : n % 2 = 0) (h2 : 2 ≤ n) (hn : n < Word.bound) :
    Histogram.MergesLikeAppend n ∧ AddsLikeCollecting :=
  ⟨Histogram.mergesLikeAppend he h2 hn, addsLikeCollecting⟩

set_option maxRecDepth 2048 in
/-- The theorem at two histograms whose widths lie far apart, and at parts of which one
has the widest buckets. -/
theorem merged_as_collected_of_far_apart :
    (∃ f, (do (← Histogram.ofValues? 6 [5, 2 ^ 61]).merge (← Histogram.ofValues? 6 [7, 7])) = .ok f ∧
      Histogram.ofValues? 6 [5, 2 ^ 61, 7, 7] = .ok f ∧ f.bucketSize = 2 ^ 59 ∧ f.buckets = [3, 0, 0, 0, 1, 0]) ∧
    ∃ s, (Grouping.join (.part [.miss, .latency (2 ^ 63 - 1)]) (.join (.part []) (.part [.hit]))).total = .ok s ∧
      collect [.hit, .miss, .latency (2 ^ 63 - 1)] = .ok s := by
  have hall := merged_as_collected (n := 6) (by decide) (by decide) (by decide)
  constructor
  · obtain ⟨h, hh⟩ : ∃ h, Histogram.ofValues? 6 [5, 2 ^ 61] = .ok h := Sim.exists_eq_ok (by rfl)
    obtain ⟨g, hg⟩ : ∃ g, Histogram.ofValues? 6 [7, 7] = .ok g := Sim.exists_eq_ok (by rfl)
    obtain ⟨f, hf, hfs⟩ := hall.1.append hh hg (by decide)
    have hcollected : Histogram.ofValues? 6 [5, 2 ^ 61, 7, 7] =
        .ok ⟨[3, 0, 0, 0, 1, 0], 2 ^ 59, 4, 2 ^ 61 + 19, some 5, some (2 ^ 61)⟩ := by cbv
    obtain rfl := Except.ok.inj (hfs.symm.trans hcollected)
    exact ⟨_, by rw [hh, Sim.ok_bind, hg, Sim.ok_bind, hf], hfs, rfl, rfl⟩
  · obtain ⟨s, hs, hsame⟩ := hall.2.exists_total
      (.join (.part [.miss, .latency (2 ^ 63 - 1)]) (.join (.part []) (.part [.hit]))) (by decide +kernel) (by decide)
    exact ⟨s, hs, hsame _ (by decide)⟩

end CacheStats

end CacheSim
