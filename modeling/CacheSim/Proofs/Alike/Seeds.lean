import CacheSim.Proofs.Alike.Simulation
import CacheSim.Proofs.Store.Draws

/-!
# Seeds

The generator has a say in the evictions of a store that chooses its victims at
random, one draw in each, and nowhere else.  A store that never draws goes the same
way with any generator (`Store.sameLines_bisimulation`), and so a system whose cache
has such a store ends the same for all seeds.

`draws_decide_evictions` says both.
-/

namespace CacheSim

/-! ## Insertions without a draw -/

theorem Policy.eq_lru {policy : Policy} (h : policy ≠ .random) : policy = .lru := by
  cases policy with
  | random => exact absurd rfl h
  | lru => rfl

namespace FullyAssociative

variable {s : FullyAssociative}

theorem evict_of_any (hp : s.policy = .lru) :
    ∃ victim rest, ∀ g, (s.evict g).result = .ok (victim, { s with lines := rest }, g) := by
  cases h : (leastIndex? (s.lines.map (·.lastAccess))).bind (swapRemove s.lines) with
  | none => exact ⟨none, s.lines, fun g => by simp [evict, hp, Policy.victim?_of_lru, h]; rw [← hp]⟩
  | some x => exact ⟨some x.1, x.2, fun g => by simp [evict, hp, Policy.victim?_of_lru, h]⟩

/-- With LRU, the generator is handed through. -/
theorem insert_of_any (hp : s.policy = .lru) (addr : Nat) (data : Bytes) :
    ∃ r : Except Fault (Option Line × FullyAssociative), ∀ g,
      (s.insert g addr data).result = r >>= fun x => .ok (x.1, x.2, g) := by
  cases hl : s.lookup addr with
  | some l => exact ⟨.error (.residentBlock addr), fun g => by simp [insert, hl]⟩
  | none =>
    by_cases hfull : s.capacity ≤ s.lines.length
    · obtain ⟨victim, rest, hevict⟩ := evict_of_any hp
      refine ⟨if rest.length < s.capacity then
        .ok (victim, s.added rest (.fresh addr data (s.time + 1)) (s.time + 1)) else .error .overfullLines, fun g => ?_⟩
      rw [insert_of_full hl hfull (hevict g)]
      split <;> rfl
    · exact ⟨.ok (none, s.added s.lines (.fresh addr data (s.time + 1)) (s.time + 1)), fun g =>
        insert_of_free hl (Nat.lt_of_not_le hfull) g data⟩

end FullyAssociative

namespace SetAssociative

variable {s : SetAssociative}

theorem chooseWay_of_any (hp : s.policy = .lru) (w : Ways) : ∃ i, ∀ g, s.chooseWay w g = .ok (i, g) := by
  cases hfree : w.findIdx? Option.isNone with
  | some i => exact ⟨i, fun g => by simp [chooseWay, hfree]⟩
  | none => exact ⟨_, fun g => by simp [chooseWay, hfree, hp, Policy.victim?_of_lru]; rfl⟩

theorem insert_of_any (hp : s.policy = .lru) (addr : Nat) (data : Bytes) :
    ∃ r : Except Fault (Option Line × SetAssociative), ∀ g,
      (s.insert g addr data).result = r >>= fun x => .ok (x.1, x.2, g) := by
  cases hl : s.lookup addr with
  | some l => exact ⟨.error (.residentBlock addr), fun g => by simp [insert, hl]⟩
  | none =>
    obtain ⟨i, hi⟩ := chooseWay_of_any hp (s.setOf addr)
    exact ⟨.ok ((s.setOf addr).getD i none, s.placed i (.fresh addr data (s.time + 1)) (s.time + 1)), fun g => by
      simp [insert, hl, hi, placed]⟩

end SetAssociative

namespace Store

variable {n : Nat} {s t : Store}

/-- A store of blocks of `n` bytes that does not choose at random, and the same lines with another
generator. -/
structure SameLines (n : Nat) (s t : Store) : Prop where
  organization : t.organization = s.organization
  sized : s.Sized
  spared : ¬s.Random
  lineSize : s.lineSize = n

theorem SameLines.eq (h : SameLines n s t) : t = { s with generator := t.generator } := by
  rw [← h.organization]

/-- A store that does not choose at random inserts a block with any generator alike. -/
theorem insert_of_any (hs : ¬s.Random) (addr : Nat) (data : Bytes) :
    ∃ r : Except Fault (Option Line × Organization), ∀ g,
      (Store.insert { s with generator := g } addr data).result = r >>= fun x => .ok (x.1, ⟨x.2, g⟩) := by
  obtain ⟨d | f | a, g₀⟩ := s
  · refine ⟨d.insert addr data >>= fun x => .ok (x.1, .direct x.2), fun g => ?_⟩
    simp [Store.insert, bind_assoc]
  · obtain ⟨r, hr⟩ := FullyAssociative.insert_of_any (Policy.eq_lru hs) addr data
    refine ⟨r >>= fun x => .ok (x.1, .full x.2), fun g => ?_⟩
    simp [Store.insert, hr, bind_assoc]
  · obtain ⟨r, hr⟩ := SetAssociative.insert_of_any (Policy.eq_lru hs) addr data
    refine ⟨r >>= fun x => .ok (x.1, .sets x.2), fun g => ?_⟩
    simp [Store.insert, hr, bind_assoc]

theorem sameLines_bisimulation (n : Nat) : Bisimulation n (SameLines n) where
  lineSize h := by
    refine ⟨h.lineSize, ?_⟩
    rw [h.eq]
    exact h.lineSize
  size h := by
    rw [h.eq]
    rfl
  capacity h := by
    rw [h.eq]
    rfl
  lookup h := by
    rw [h.eq]
    rfl
  update h addr f _ := by
    have hsucceeds := h.sized.update addr f
    refine ⟨?_, hsucceeds.sized, mt hsucceeds.random.mp h.spared, hsucceeds.lineSize.trans h.lineSize⟩
    rw [h.eq]
    rfl
  touch h addr := by
    have hsucceeds := h.sized.touch addr
    refine ⟨?_, hsucceeds.sized, mt hsucceeds.random.mp h.spared, hsucceeds.lineSize.trans h.lineSize⟩
    rw [h.eq]
    rfl
  insert {s t} h addr data _ := by
    obtain ⟨r, hr⟩ := insert_of_any h.spared addr data
    have hs : (s.insert addr data).result = r >>= fun x => .ok (x.1, ⟨x.2, s.generator⟩) := hr s.generator
    have ht : (t.insert addr data).result = r >>= fun x => .ok (x.1, ⟨x.2, t.generator⟩) := by
      conv_lhs => rw [h.eq]
      exact hr t.generator
    rw [ht]
    cases r with
    | error e =>
      rw [hs]
      exact .error e
    | ok x =>
      obtain ⟨hsucceeds, -⟩ := h.sized.insert hs
      rw [hs]
      exact .ok ⟨rfl, rfl, hsucceeds.sized, mt hsucceeds.random.mp h.spared, hsucceeds.lineSize.trans h.lineSize⟩

/-- New stores that do not choose at random, with any generators. -/
theorem sameLines_new {g : Geometry} (hg : g.kind = .directMapped ∨ g.policy = .lru) (gen gen' : Generator) :
    Alike (SameLines g.lineSize) (Store.ofGeometry? g gen) (Store.ofGeometry? g gen') := by
  have hnew : ∃ r : Except Fault Organization, ∀ gen, ofGeometry? g gen = r >>= fun o => .ok ⟨o, gen⟩ := by
    unfold ofGeometry?
    cases g.kind <;> exact ⟨_, fun _ => rfl⟩
  obtain ⟨r, hr⟩ := hnew
  rw [hr gen, hr gen']
  refine .after _ fun o ho => .ok ?_
  have h : ofGeometry? g gen = .ok ⟨o, gen⟩ := by rw [hr gen, ho, Sim.ok_bind]
  obtain ⟨hsized, -, hrandom⟩ := sized_of_geometry h
  refine ⟨rfl, hsized, fun hr => ?_, (Store.valid_ofGeometry? h).2.1⟩
  obtain ⟨hkind, hpolicy⟩ := hrandom.mp hr
  obtain hg | hg := hg
  · exact hkind hg
  · rw [hpolicy] at hg
    cases hg

end Store

/-! ## Systems -/

/-- The victims of the cache are not chosen at random. -/
def CacheConfig.Steady (c : CacheConfig) : Prop :=
  c.kind = .directMapped ∨ c.kind = .fullyAssociative ∧ c.optimized = true ∨
    c.kind = .setAssociative ∧ c.policy = some .lru

theorem CacheConfig.Steady.policy {c : CacheConfig} (h : c.Steady) :
    c.kind = .directMapped ∨ c.effectivePolicy = .lru := by
  obtain hk | ⟨hk, ho⟩ | ⟨hk, hp⟩ := h
  · exact .inl hk
  · exact .inr (by simp [effectivePolicy, hk, ho])
  · exact .inr (by simp [effectivePolicy, hk, hp])

theorem Config.seeds_akin {c : Config} (h : c.cache.Steady) (seed : UInt64) :
    Simulation.Akin c.lineSize.toNat (Store.SameLines c.lineSize.toNat) { c with seed } c where
  clock := rfl
  memory := rfl
  ports := rfl
  validate := rfl
  stores := by
    refine .after _ fun lines _ => .ok ⟨⟨rfl, rfl, rfl⟩, ?_⟩
    exact Store.sameLines_new (g := ⟨_, c.lineSize.toNat, lines, _, _, _⟩) h.policy _ _

/-- A draw is below its bound and changes the generator.  A store that chooses its victims at
random draws an index for every eviction, below the number of lines that there are to choose
from, which decides it, and nothing else draws any.  So the evictions of a run are decided by the
draws in order, and a system whose cache has a store of another kind ends the same for all
seeds. -/
theorem draws_decide_evictions :
    (∀ (gen gen' : Generator) (n i : Nat), gen.index n = .ok (i, gen') → i < n ∧ gen.taken < gen'.taken) ∧
    (∀ (g : Geometry) (gen : Generator) (s : Store), Store.ofGeometry? g gen = .ok s →
      ∀ (calls : List Store.Call) (replies : List Store.Reply) (t : Store),
        (Store.run calls s).result = .ok (replies, t) →
          ((t.Random ↔ g.kind ≠ .directMapped ∧ g.policy = .random) ∧ t.room = s.room) ∧
          (∀ c reply u, (t.perform c).result = .ok (reply, u) → t.Draw c reply u) ∧
          (Store.evictions calls s).map (·.2) = replies.filterMap Store.Reply.victim? ∧
          (t.Random → ∃ picks, gen.indices s.room (Store.evictions calls s).length = .ok (picks, t.generator) ∧
            List.Forall₂ (fun e i => e.1.length = s.room ∧ e.1[i]? = some e.2) (Store.evictions calls s) picks) ∧
          (¬t.Random → t.generator = gen)) ∧
      ∀ (config : Config) (seed : UInt64) (trace : Trace) (limit : Nat), config.cache.Steady →
        (Simulation.outcome { config with seed } trace limit).result =
          (Simulation.outcome config trace limit).result := by
  refine ⟨fun gen gen' n i h => ⟨Generator.index_lt h, Generator.taken_lt_of_index h⟩,
    fun g gen s hs calls replies t hr => ?_, fun config seed trace limit h => ?_⟩
  · obtain ⟨hsized, rfl, hrandom⟩ := Store.sized_of_geometry hs
    have hsucceeds := hsized.succeeds_of_run hr
    refine ⟨⟨hsucceeds.random.trans hrandom, hsucceeds.room⟩, fun c reply u hu => (hsucceeds.sized.perform hu).2,
      Store.map_evictions hr, fun ht => ?_, fun ht => ?_⟩
    · exact hsized.run_draws (hsucceeds.random.mp ht) hr
    · exact hsized.run_kept (mt hsucceeds.random.mpr ht) hr
  · exact (config.seeds_akin h seed).outcome_eq (Store.sameLines_bisimulation _) trace limit

/-- The theorem for three blocks in two lines, one draw, and for a cache with LRU. -/
theorem draws_decide_evictions_of_three :
    (∃ s replies t, Store.ofGeometry? ⟨.fullyAssociative, 4, 2, 2, 1, .random⟩ (.seeded 7) = .ok s ∧
      (Store.run [.insert 0 [1, 2, 3, 4], .insert 4 [5, 6, 7, 8], .insert 8 [9, 9, 9, 9]] s).result = .ok (replies, t) ∧
      ∃ picks, (Generator.seeded 7).indices 2 1 = .ok (picks, t.generator)) ∧
    (Simulation.outcome { cache := { kind := .setAssociative, policy := some .lru }, seed := 1 } ⟨[{}]⟩ 9).result =
      (Simulation.outcome { cache := { kind := .setAssociative, policy := some .lru } } ⟨[{}]⟩ 9).result := by
  have hnew : Store.ofGeometry? ⟨.fullyAssociative, 4, 2, 2, 1, .random⟩ (.seeded 7) = .ok _ := rfl
  have hrun : (Store.run [.insert 0 [1, 2, 3, 4], .insert 4 [5, 6, 7, 8], .insert 8 [9, 9, 9, 9]]
    ⟨.full { capacity := 2, lineSize := 4, policy := .random }, .seeded 7⟩).result.isOk := by decide +kernel
  have hone : (Store.evictions [.insert 0 [1, 2, 3, 4], .insert 4 [5, 6, 7, 8], .insert 8 [9, 9, 9, 9]]
    ⟨.full { capacity := 2, lineSize := 4, policy := .random }, .seeded 7⟩).length = 1 := by decide +kernel
  obtain ⟨⟨replies, t⟩, hrun⟩ := Sim.exists_eq_ok hrun
  obtain ⟨⟨hrandom, -⟩, -, -, hpicks, -⟩ := draws_decide_evictions.2.1 _ _ _ hnew _ _ _ hrun
  obtain ⟨picks, hpicks, -⟩ := hpicks (hrandom.mpr ⟨nofun, rfl⟩)
  rw [hone] at hpicks
  refine ⟨⟨_, replies, t, hnew, hrun, picks, hpicks⟩, ?_⟩
  exact draws_decide_evictions.2.2 { cache := { kind := .setAssociative, policy := some .lru } } 1 ⟨[{}]⟩ 9
    (.inr (.inr ⟨rfl, rfl⟩))

end CacheSim
