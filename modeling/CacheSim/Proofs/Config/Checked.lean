import CacheSim.Config.Basic
import CacheSim.Proofs.Store.Basic
import CacheSim.Proofs.Store.Mapping

/-!
# What the check of a configuration ensures

A configuration passes the check exactly if its lines have a power of two bytes and
it is `Checked`, that is, if its numbers fit together (`Config.validate_eq_ok_iff`).
Then it has a shape (`Checked.geometry_eq_ok`) whose lines fill its sets and hold the
bytes of the cache (`Checked.holds_layout`), and there is a store of such a shape in
every organisation (`Geometry.Holds.store_eq_ok`).
-/

namespace CacheSim

/-! ## Shapes and their stores -/

namespace Geometry

variable {g : Geometry} {bytes : Nat}

/-- The lines of a shape fill its sets and hold a number of bytes. -/
structure Holds (g : Geometry) (bytes : Nat) : Prop where
  lines : 1 ≤ g.lines
  ways : 1 ≤ g.ways
  sets : ∃ sets, g.sets = .ok sets ∧ sets * g.ways = g.lines
  totalBytes : g.totalBytes = .ok bytes
  bytes : 1 ≤ bytes

theorem Holds.total (h : g.Holds bytes) : g.lines * g.lineSize = bytes :=
  (Word.mul_eq_ok.mp h.totalBytes).2.symm

theorem Holds.lineSize (h : g.Holds bytes) : 0 < g.lineSize :=
  Nat.pos_of_mul_pos_left (h.total ▸ h.bytes)

theorem Holds.sets_eq_ok (h : g.Holds bytes) : g.sets = .ok (g.lines / g.ways) :=
  if_neg (Nat.ne_of_gt h.ways)

theorem Holds.sets_mul (h : g.Holds bytes) : g.lines / g.ways * g.ways = g.lines := by
  obtain ⟨sets, hsets, hmul⟩ := h.sets
  rwa [Except.ok.inj (hsets.symm.trans h.sets_eq_ok)] at hmul

theorem Holds.sets_pos (h : g.Holds bytes) : 0 < g.lines / g.ways :=
  Nat.pos_of_mul_pos_right (h.sets_mul ▸ h.lines)

/-- The organisation and the policy do not matter. -/
theorem Holds.of_kind (h : g.Holds bytes) (kind : CacheKind) (policy : Policy) :
    ({ g with kind, policy } : Geometry).Holds bytes :=
  ⟨h.lines, h.ways, h.sets, h.totalBytes, h.bytes⟩

/-- The shape can be put into words. -/
theorem Holds.text_eq_ok (h : g.Holds bytes) : ∃ text, g.text = .ok text := by
  rw [text, h.totalBytes, h.sets_eq_ok]
  exact ⟨_, rfl⟩

/-- There is a store of such a shape, with room for all of its lines. -/
theorem Holds.store_eq_ok (h : g.Holds bytes) (gen : Generator) :
    ∃ store, Store.ofGeometry? g gen = .ok store ∧ store.capacity = g.lines ∧ store.lineSize = g.lineSize := by
  unfold Store.ofGeometry?
  cases g.kind with
  | directMapped =>
    rw [DirectMapped.ofSizes?, Mapping.ofSizes?_eq_ok h.lines h.lineSize]
    exact ⟨_, rfl, rfl, rfl⟩
  | fullyAssociative =>
    rw [FullyAssociative.ofSizes?, if_pos (show 0 < g.lines from h.lines)]
    exact ⟨_, rfl, rfl, rfl⟩
  | setAssociative =>
    have heven : g.lines % g.ways = 0 := Nat.mod_eq_zero_of_dvd ⟨_, (Nat.mul_comm .. ▸ h.sets_mul).symm⟩
    simp only [SetAssociative.ofSizes?, if_pos (show 0 < g.ways from h.ways), if_pos heven,
      Mapping.ofSizes?_eq_ok h.sets_pos h.lineSize]
    exact ⟨_, rfl, h.sets_mul, rfl⟩

end Geometry

/-! ## Configurations -/

namespace Config

variable {c : Config}

/-- The number of lines of a cache whose lines are not empty. -/
def lineCount (c : Config) : Nat :=
  c.cache.size.bytes.toNat / c.lineSize.toNat

/-- The shape of a cache whose lines are not empty. -/
def layout (c : Config) : Geometry where
  kind := c.cache.kind
  lineSize := c.lineSize.toNat
  lines := c.lineCount
  ways := c.cache.ways c.lineCount
  latency := c.cache.latency.toNat
  policy := c.cache.effectivePolicy

/-- What the check of a configuration ensures. -/
structure Checked (c : Config) : Prop where
  lineSize : 0 < c.lineSize.toNat
  period : 0 < c.clockPeriod.toNat
  latency : 0 < c.cache.latency.toNat
  size : 0 < c.cache.size.bytes.toNat
  multiple : c.cache.size.bytes.toNat % c.lineSize.toNat = 0
  ways : 0 < c.cache.ways c.lineCount
  even : c.lineCount % c.cache.ways c.lineCount = 0
  ports : 0 < c.cache.ports.toNat
  buffer : 0 < c.memory.buffer.toNat

/-- A check that passes goes on with what it guards. -/
theorem ite_error_eq_ok {ε α : Type} {p : Prop} [Decidable p] {x : Except ε α} {e : ε} {a : α} :
    (if p then x else .error e) = .ok a ↔ p ∧ x = .ok a := by
  by_cases hp : p <;> simp [hp]

theorem toNat_pos_iff {n : UInt64} : 0 < n.toNat ↔ n ≠ 0 := by
  rw [Nat.pos_iff_ne_zero, ne_eq, ne_eq, ← UInt64.toNat_inj]
  rfl

theorem isPowerOfTwo_iff {n : Nat} (h : n ≠ 0) : isPowerOfTwo n ↔ ∃ k, n = 2 ^ k := by
  rw [isPowerOfTwo, decide_eq_true_iff, Nat.one_shiftLeft]
  refine ⟨fun hn => ⟨_, hn⟩, ?_⟩
  rintro ⟨k, rfl⟩
  rw [Nat.log2_two_pow]

/-- The check passes exactly the configurations whose numbers fit together and whose lines have
a power of two bytes. -/
theorem validate_eq_ok_iff : c.validate = .ok () ↔ (∃ k, c.lineSize.toNat = 2 ^ k) ∧ c.Checked := by
  unfold validate
  simp only [bind, Except.bind, pure, Except.pure, throw, throwThe, MonadExceptOf.throw, ite_error_eq_ok]
  constructor
  · rintro ⟨⟨hline, hpower⟩, hperiod, hlatency, ⟨hsize, hmultiple⟩, ⟨hways, heven⟩, hports, hbuffer, -⟩
    exact ⟨(isPowerOfTwo_iff hline).mp hpower, Nat.pos_of_ne_zero hline, toNat_pos_iff.mpr hperiod,
      toNat_pos_iff.mpr hlatency, Nat.pos_of_ne_zero hsize, hmultiple, Nat.pos_of_ne_zero hways, heven,
      toNat_pos_iff.mpr hports, toNat_pos_iff.mpr hbuffer⟩
  · rintro ⟨hpower, h⟩
    have hline := Nat.ne_of_gt h.lineSize
    exact ⟨⟨hline, (isPowerOfTwo_iff hline).mpr hpower⟩, toNat_pos_iff.mp h.period, toNat_pos_iff.mp h.latency,
      ⟨Nat.ne_of_gt h.size, h.multiple⟩, ⟨Nat.ne_of_gt h.ways, h.even⟩, toNat_pos_iff.mp h.ports,
      toNat_pos_iff.mp h.buffer, trivial⟩

theorem checked_of_validate (h : c.validate = .ok ()) : c.Checked :=
  (validate_eq_ok_iff.mp h).2

theorem Checked.geometry_eq_ok (h : c.Checked) : c.geometry = .ok c.layout := by
  have hlines : c.lines = .ok c.lineCount := if_neg (Nat.ne_of_gt h.lineSize)
  simp only [geometry, hlines, Sim.ok_bind]
  rfl

theorem Checked.lineCount_pos (h : c.Checked) : 0 < c.lineCount :=
  Nat.div_pos (Nat.le_of_dvd h.size (Nat.dvd_of_mod_eq_zero h.multiple)) h.lineSize

/-- The lines of the shape of a checked configuration hold the bytes of the cache. -/
theorem Checked.holds_layout (h : c.Checked) : c.layout.Holds c.cache.size.bytes.toNat where
  lines := h.lineCount_pos
  ways := h.ways
  sets := ⟨_, if_neg (Nat.ne_of_gt h.ways), Nat.div_mul_cancel (Nat.dvd_of_mod_eq_zero h.even)⟩
  totalBytes := by
    have htotal : c.layout.lines * c.layout.lineSize = c.cache.size.bytes.toNat :=
      Nat.div_mul_cancel (Nat.dvd_of_mod_eq_zero h.multiple)
    exact Word.mul_eq_ok.mpr ⟨htotal ▸ c.cache.size.bytes.toNat_lt, htotal.symm⟩
  bytes := h.size

/-- There is a store for a checked configuration. -/
theorem Checked.store_eq_ok (h : c.Checked) (gen : Generator) :
    ∃ store, Store.ofGeometry? c.layout gen = .ok store := by
  obtain ⟨store, hstore, -⟩ := h.holds_layout.store_eq_ok gen
  exact ⟨store, hstore⟩

end Config

end CacheSim
