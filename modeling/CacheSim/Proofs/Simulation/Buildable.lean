import CacheSim.Proofs.Simulation.Build

/-!
# Which systems can be built

The check of a configuration is made for what comes after it: a configuration that
passes has a shape, and every part of a system of this shape can be made
(`Config.Checked.makes`).  The system is refused only for a trace with too many
scripts, and nothing can go wrong with it but that the latency of the memory is no word
in ticks (`Simulation.result_build_cases`).  A configuration whose lines do not fit
together does not pass (`Config.Misfit.refused`).
-/

namespace CacheSim

namespace Config

variable {c : Config} {g : Geometry}

/-- The parts of a system of some shape can be made: its clock, the mappings to its lines and to its
sets, a store in every organisation, and a cache around it. -/
structure Makes (c : Config) (g : Geometry) : Prop where
  clock : Clock.ofPeriod? c.clockPeriod.toNat = .ok ⟨c.clockPeriod.toNat⟩
  mapping : ∀ sets, g.lines = sets ∨ g.sets = .ok sets → ∃ m, Mapping.ofSizes? sets g.lineSize = .ok m
  store : ∀ kind policy gen, ∃ store, Store.ofGeometry? { g with kind, policy } gen = .ok store ∧
    store.capacity = g.lines ∧ store.lineSize = g.lineSize
  cache : ∀ {ρ μ : Type} (name : String) (store : Store) (requestors : List ρ) (memory : μ),
    store.lineSize = g.lineSize → requestors.length = c.cache.ports.toNat →
      ∃ cache, (Cache.build name g store requestors memory).result = .ok cache ∧ cache.store = store
  text : ∃ text, g.text = .ok text

/-- The lines are not powers of two, or they do not divide the cache, or its sets do not divide them. -/
def Misfit (c : Config) : Prop :=
  (¬∃ k, c.lineSize.toNat = 2 ^ k) ∨
    (c.cache.size.bytes.toNat = 0 ∨ ¬c.lineSize.toNat ∣ c.cache.size.bytes.toNat) ∨
      c.cache.ways c.lineCount = 0 ∨ ¬c.cache.ways c.lineCount ∣ c.lineCount

theorem Misfit.refused (h : c.Misfit) : ∃ e, c.validate = .error e := by
  cases hv : c.validate with
  | error e => exact ⟨e, rfl⟩
  | ok _ =>
    obtain ⟨hpower, hc⟩ := validate_eq_ok_iff.mp hv
    exfalso
    obtain hline | (hzero | hdvd) | hzero | hdvd := h
    · exact hline hpower
    · exact Nat.ne_of_gt hc.size hzero
    · exact hdvd (Nat.dvd_of_mod_eq_zero hc.multiple)
    · exact Nat.ne_of_gt hc.ways hzero
    · exact hdvd (Nat.dvd_of_mod_eq_zero hc.even)

theorem Checked.makes (h : c.Checked) : c.Makes c.layout where
  clock := if_neg (Nat.ne_of_gt h.period)
  mapping sets hsets := by
    have hpos : 0 < sets := by
      obtain rfl | hsets := hsets
      · exact h.lineCount_pos
      · exact Except.ok.inj (hsets.symm.trans h.holds_layout.sets_eq_ok) ▸ h.holds_layout.sets_pos
    exact ⟨_, Mapping.ofSizes?_eq_ok hpos h.lineSize⟩
  store kind policy gen := (h.holds_layout.of_kind kind policy).store_eq_ok gen
  cache name store requestors memory hsize hports := by
    have hne : requestors ≠ [] := List.ne_nil_of_length_pos (hports ▸ h.ports)
    simp [Cache.build, hne, hsize]
  text := h.holds_layout.text_eq_ok

end Config

namespace Simulation

variable {config : Config} {trace : Trace}

/-- A trace with too many scripts is refused. -/
theorem result_build_of_lt (hv : config.validate = .ok ())
    (hports : config.cache.ports.toNat < trace.scripts.length) :
    (build config trace).result =
      .ok (.error (.tooManyScripts trace.scripts.length config.cache.ports.toNat)) := by
  have hcheck : check config trace = .error (.tooManyScripts trace.scripts.length config.cache.ports.toNat) := by
    simp only [check, hv, Except.mapError, bind, Except.bind, if_pos hports]
    rfl
  simp [build, hcheck]

/-- What comes of a configuration that passes the check. -/
theorem result_build_cases (hv : config.validate = .ok ()) (trace : Trace) :
    ∃ store, Store.ofGeometry? config.layout (.seeded config.seed.toNat) = .ok store ∧
      (build config trace).result =
        if config.cache.ports.toNat < trace.scripts.length then
          .ok (.error (.tooManyScripts trace.scripts.length config.cache.ports.toNat))
        else if config.memory.latency.toNat * config.clockPeriod.toNat < Word.bound then
          .ok (.ok (initial config trace store .empty))
        else .error .mulOverflow := by
  by_cases hports : config.cache.ports.toNat < trace.scripts.length
  · obtain ⟨store, hstore⟩ := (Config.checked_of_validate hv).store_eq_ok (.seeded config.seed.toNat)
    exact ⟨store, hstore, (result_build_of_lt hv hports).trans (if_pos hports).symm⟩
  · simp only [if_neg hports]
    exact result_build hv (Nat.le_of_not_lt hports)

/-- Every part of the system of a configuration that passes the check can be made.  The system
is refused exactly if there are too many scripts; otherwise it is not built exactly if the
latency of the memory is no word in ticks.  A configuration that does not fit together does
not pass. -/
theorem build_of_validate (config : Config) (trace : Trace) :
    (config.validate = .ok () → ∃ g, config.geometry = .ok g ∧ g.lineSize = config.lineSize.toNat ∧
      g.Holds config.cache.size.bytes.toNat ∧ config.Makes g ∧
      (∀ e, (build config trace).result = .ok (.error e) ↔
        config.cache.ports.toNat < trace.scripts.length ∧
          e = .tooManyScripts trace.scripts.length config.cache.ports.toNat) ∧
      (∀ fault, (build config trace).result = .error fault ↔
        trace.scripts.length ≤ config.cache.ports.toNat ∧
          2 ^ 64 ≤ config.memory.latency.toNat * config.clockPeriod.toNat ∧ fault = .mulOverflow) ∧
      ((∃ s, (build config trace).result = .ok (.ok s)) ↔
        trace.scripts.length ≤ config.cache.ports.toNat ∧
          config.memory.latency.toNat * config.clockPeriod.toNat < 2 ^ 64) ∧
      ∀ s, (build config trace).result = .ok (.ok s) →
        s.cache.geometry = g ∧ Store.ofGeometry? g (.seeded config.seed.toNat) = .ok s.cache.store) ∧
    (config.Misfit → ∃ e, config.validate = .error e) := by
  refine ⟨fun hv => ?_, Config.Misfit.refused⟩
  have hc := Config.checked_of_validate hv
  obtain ⟨store, hstore, hresult⟩ := result_build_cases hv trace
  have hbound : Word.bound = 2 ^ 64 := rfl
  rw [hbound] at hresult
  refine ⟨config.layout, hc.geometry_eq_ok, rfl, hc.holds_layout, hc.makes, fun e => ?_, fun fault => ?_, ?_,
    fun s hs => ?_⟩
  · rw [hresult]
    split_ifs <;> simp_all [eq_comm]
  · rw [hresult]
    split_ifs <;> simp_all [eq_comm]
  · rw [hresult]
    split_ifs <;> simp_all
  · rw [hresult] at hs
    split_ifs at hs
    · cases hs
    · obtain rfl := Except.ok.inj (Except.ok.inj hs)
      exact ⟨rfl, hstore⟩

/-- A configuration whose memory is just too slow. -/
def slowConfig : Config where
  clockPeriod := 4
  cache := { kind := .setAssociative, size := ⟨4096⟩, setSize := some 8 }
  memory := { latency := 4611686018427387904 }

/-- The theorem where the latency of the memory is the first that is no word in ticks, and at sets that
do not divide the lines. -/
theorem build_of_slow :
    (build slowConfig ⟨[{}]⟩).result = .error .mulOverflow ∧
      ∃ e, ({ slowConfig with cache := { slowConfig.cache with setSize := some 3 } } : Config).validate = .error e := by
  obtain ⟨-, -, -, -, -, -, hfault, -⟩ := (build_of_validate slowConfig ⟨[{}]⟩).1 (by decide)
  exact ⟨(hfault .mulOverflow).mpr ⟨by decide, by decide, rfl⟩,
    (build_of_validate _ ⟨[]⟩).2 (.inr (.inr (.inr (by decide))))⟩

end Simulation

end CacheSim
