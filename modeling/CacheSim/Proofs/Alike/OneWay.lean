import CacheSim.Proofs.Alike.Simulation
import CacheSim.Proofs.Store.OneWay

/-!
# Sets of one way and direct mapping

A set associative cache with one way in every set is a direct mapped cache, first
as a store, whatever it is asked for, and then in a whole system: nothing that
comes of a trace tells the two apart (`oneWay_eq_directMapped`).
-/

namespace CacheSim

/-- The configuration of a direct mapped cache. -/
def Config.direct (c : Config) : Config :=
  { c with cache := { c.cache with kind := .directMapped } }

/-- The configuration of a set associative cache with sets of one line. -/
def Config.oneWay (c : Config) (policy : Option Policy) : Config :=
  { c with cache := { c.cache with kind := .setAssociative, setSize := some 1, policy } }

/-- What a new store replies to calls, and the lines that it holds in the end. -/
def Store.trial (g : Geometry) (generator : Generator) (calls : List Store.Call) :
    Except Fault (List Store.Reply × List Line) := do
  let s ← ofGeometry? g generator
  let (replies, s) ← (run calls s).result
  return (replies, s.lines)

namespace Store

theorem trial_oneWay (g : Geometry) (policy : Policy) (gen gen' : Generator) {calls : List Call}
    (hc : ∀ c ∈ calls, c.Aligned g.lineSize) : trial (g.oneWay policy) gen calls = trial g.direct gen' calls := by
  refine Alike.eq ((oneWay_new g policy gen gen').bind fun s t hst => ?_)
  refine ((oneWay_bisimulation g.lineSize).run hst hc).bind fun x y hxy => ?_
  obtain ⟨hreplies, hlines⟩ := hxy
  exact .ok (Prod.ext hreplies hlines.lines)

end Store

theorem Config.oneWay_akin (c : Config) (policy : Option Policy) :
    Simulation.Akin c.lineSize.toNat (Store.OneWay c.lineSize.toNat) (c.oneWay policy) c.direct where
  clock := rfl
  memory := rfl
  ports := rfl
  validate := rfl
  stores := by
    refine .after _ fun lines _ => .ok ⟨⟨rfl, rfl, rfl⟩, ?_⟩
    exact Store.oneWay_new ⟨.directMapped, c.lineSize.toNat, lines, 1, c.cache.latency.toNat, .random⟩ _ _ _

/-- With one way in every set, whatever the policy would choose, a set associative
store replies what a direct mapped one replies and holds the same lines, and a
system ends the same with either. -/
theorem oneWay_eq_directMapped :
    (∀ (g : Geometry) (policy : Policy) (gen gen' : Generator) (calls : List Store.Call),
        (∀ c ∈ calls, c.Aligned g.lineSize) →
          Store.trial (g.oneWay policy) gen calls = Store.trial g.direct gen' calls) ∧
      ∀ (config : Config) (policy : Option Policy) (trace : Trace) (limit : Nat),
        (Simulation.outcome (config.oneWay policy) trace limit).result =
          (Simulation.outcome config.direct trace limit).result :=
  ⟨fun g policy gen gen' _ hc => Store.trial_oneWay g policy gen gen' hc,
    fun config policy trace limit =>
      (config.oneWay_akin policy).outcome_eq (Store.oneWay_bisimulation _) trace limit⟩

/-- The theorem for blocks of four bytes in three lines, two of the blocks in the
same place: the first of them leaves with the byte written to it. -/
theorem oneWay_eq_directMapped_of_conflict :
    Store.trial (Geometry.oneWay ⟨.directMapped, 4, 3, 1, 1, .random⟩ .lru) (.seeded 0)
        [.insert 0 [1, 2, 3, 4], .touch 0, .access (.write 1 [9] 0), .insert 12 [0, 0, 0, 0], .lookup 12] =
      .ok ([.victim none, .touched, .accessed (some (.write 1 [9] 0)), .victim (some ⟨0, [1, 9, 3, 4], 1, 2⟩),
        .found (some ⟨12, [0, 0, 0, 0], 3, 3⟩)], [⟨12, [0, 0, 0, 0], 3, 3⟩]) := by
  have h := oneWay_eq_directMapped.1 ⟨.directMapped, 4, 3, 1, 1, .random⟩ .lru (.seeded 0) (.seeded 1)
    [.insert 0 [1, 2, 3, 4], .touch 0, .access (.write 1 [9] 0), .insert 12 [0, 0, 0, 0], .lookup 12] (by decide)
  exact h.trans rfl

end CacheSim
