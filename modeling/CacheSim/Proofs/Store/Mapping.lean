import CacheSim.Proofs.Packet
import CacheSim.Store.Mapping
import Mathlib.Algebra.Order.Floor.Div
import Mathlib.Data.Fintype.EquivFin
import Mathlib.Data.Int.CardIntervalMod
import Mathlib.Order.Bounds.Basic

/-!
# How a mapping spreads blocks

Blocks are counted from address zero on.  The tag of an address tells the number of its
block (`tag_inj`), and its set is that number modulo the number of sets, so two
addresses belong to one set if and only if the numbers of their blocks are congruent
(`setIndex_eq_iff`).

* `tag_eq_of_setIndex_eq`: within a distance of one block for every set, a block is the
  only one of its set;
* `bijective_setIndex`: hence as many consecutive blocks as there are sets meet every set
  once;
* `share_eq`: how many of any consecutive blocks belong to a set;
* `toNat_tag`, `toNat_setIndex`: tags and sets can be found in words of 64 bits;
* `spreadLaws`: all of this for every number of sets and every size of a block.
-/

namespace CacheSim.Mapping

variable {m : Mapping} {base addr a b k n : Nat}

/-- There is a mapping to some sets of blocks that are not empty. -/
theorem ofSizes?_eq_ok {sets lineSize : Nat} (hs : 0 < sets) (hl : 0 < lineSize) :
    ofSizes? sets lineSize = .ok ⟨sets, lineSize, hs, hl⟩ := by
  rw [ofSizes?, dif_pos hs, dif_pos hl]

/-! ## The numbers of blocks -/

/-- How many blocks lie before that of an address. -/
def number (m : Mapping) (addr : Nat) : Nat :=
  addr / m.lineSize

theorem tag_eq (m : Mapping) (addr : Nat) : m.tag addr = m.lineSize * m.number addr :=
  Block.align_eq_mul m.lineSize addr

theorem tag_inj : m.tag a = m.tag b ↔ m.number a = m.number b := by
  rw [tag_eq, tag_eq, Nat.mul_right_inj (Nat.ne_of_gt m.lineSize_pos)]

theorem tag_lt_iff : m.tag a < m.tag b + k * m.lineSize ↔ m.number a < m.number b + k := by
  rw [tag_eq, tag_eq, Nat.mul_comm k, ← Nat.mul_add, Nat.mul_lt_mul_left m.lineSize_pos]

theorem setIndex_eq_iff : m.setIndex a = m.setIndex b ↔ m.number a ≡ m.number b [MOD m.sets] :=
  Fin.ext_iff

/-- The tag is the last block that begins at or before an address. -/
theorem isGreatest_tag (m : Mapping) (addr : Nat) :
    IsGreatest {base | m.lineSize ∣ base ∧ base ≤ addr} (m.tag addr) := by
  refine ⟨⟨Block.dvd_align .., Block.align_le ..⟩, ?_⟩
  rintro _ ⟨⟨k, rfl⟩, hle⟩
  rw [tag_eq]
  exact Nat.mul_le_mul_left _ ((Nat.le_div_iff_mul_le m.lineSize_pos).mpr (Nat.mul_comm .. ▸ hle))

/-- The addresses of a block are those of its tag. -/
theorem tag_eq_iff (h : m.lineSize ∣ base) : m.tag addr = base ↔ base ≤ addr ∧ addr < base + m.lineSize :=
  Block.align_eq_iff m.lineSize_pos h

/-- All addresses of a block belong to its set. -/
theorem setIndex_tag (m : Mapping) (addr : Nat) : m.setIndex (m.tag addr) = m.setIndex addr := by
  have htag : m.tag (m.tag addr) = m.tag addr := Block.align_align ..
  rw [setIndex_eq_iff, tag_inj.mp htag]

/-! ## Consecutive blocks -/

theorem number_add_mul (m : Mapping) (addr k : Nat) : m.number (addr + k * m.lineSize) = m.number addr + k :=
  Nat.add_mul_div_right addr k m.lineSize_pos

theorem tag_add_mul (m : Mapping) (addr k : Nat) : m.tag (addr + k * m.lineSize) = m.tag addr + k * m.lineSize := by
  rw [tag_eq, tag_eq, number_add_mul, Nat.mul_add, Nat.mul_comm k]

/-- Consecutive blocks belong to consecutive sets, the first set after the last one. -/
theorem setIndex_add_mul (m : Mapping) (addr k : Nat) :
    (m.setIndex (addr + k * m.lineSize) : Nat) = (m.setIndex addr + k) % m.sets := by
  show m.number (addr + k * m.lineSize) % m.sets = (m.number addr % m.sets + k) % m.sets
  rw [number_add_mul, Nat.mod_add_mod]

/-- The next block of the same set is one block for every set away. -/
theorem tag_eq_of_setIndex_eq (hset : m.setIndex a = m.setIndex b) (hab : m.tag a < m.tag b + m.sets * m.lineSize)
    (hba : m.tag b < m.tag a + m.sets * m.lineSize) : m.tag a = m.tag b := by
  rw [tag_lt_iff] at hab hba
  exact tag_inj.mpr ((setIndex_eq_iff.mp hset).eq_of_abs_lt (abs_sub_lt_iff.mpr ⟨by omega, by omega⟩))

/-- As many consecutive blocks as there are sets meet every set once. -/
theorem bijective_setIndex (m : Mapping) (addr : Nat) :
    Function.Bijective fun k : Fin m.sets => m.setIndex (addr + k * m.lineSize) := by
  -- there are as many blocks as sets, so no set is left out if no two blocks share one
  refine Finite.injective_iff_bijective.mp fun j k hset => Fin.ext ?_
  have htag : m.tag (addr + j * m.lineSize) = m.tag (addr + k * m.lineSize) := by
    refine tag_eq_of_setIndex_eq hset ?_ ?_ <;> rw [tag_lt_iff, number_add_mul, number_add_mul] <;> omega
  rw [tag_inj, number_add_mul, number_add_mul] at htag
  exact Nat.add_left_cancel htag

/-- How many of `n` consecutive blocks, the first one that of an address, belong to a set. -/
def share (m : Mapping) (addr n : Nat) (i : Fin m.sets) : Nat :=
  Nat.count (fun k => m.setIndex (addr + k * m.lineSize) = i) n

/-- Every round over the sets gives one block to each of them, and the blocks of a round
that is not complete go to the sets that come first in it. -/
theorem share_eq (m : Mapping) (addr n k : Nat) :
    m.share addr n (m.setIndex (addr + k * m.lineSize)) = n / m.sets + if k % m.sets < n % m.sets then 1 else 0 := by
  have hcongr : ∀ j, m.setIndex (addr + j * m.lineSize) = m.setIndex (addr + k * m.lineSize) ↔
      j ≡ k [MOD m.sets] := by
    intro j
    rw [setIndex_eq_iff, number_add_mul, number_add_mul]
    exact ⟨Nat.ModEq.add_left_cancel' _, Nat.ModEq.add_left _⟩
  rw [← Nat.count_modEq_card n m.sets_pos k]
  simp only [share, hcongr]

/-- The shares of two sets differ by one block at most. -/
theorem share_bounds (m : Mapping) (addr n : Nat) (i : Fin m.sets) :
    n / m.sets ≤ m.share addr n i ∧ m.share addr n i ≤ n ⌈/⌉ m.sets := by
  obtain ⟨k, rfl⟩ := (m.bijective_setIndex addr).surjective i
  have hfloor : n / m.sets ≤ n ⌈/⌉ m.sets :=
    Nat.div_le_of_le_mul ((ceilDiv_le_iff_le_mul m.sets_pos).mp (Nat.le_refl _))
  rw [share_eq]
  split
  · rename_i hrest
    refine ⟨Nat.le_add_right .., Nat.lt_of_not_le fun hle => ?_⟩
    -- a round that is not complete is one more than the complete ones
    have hn := (ceilDiv_le_iff_le_mul m.sets_pos).mp hle
    have hdiv := Nat.div_add_mod n m.sets
    omega
  · exact ⟨Nat.le_refl _, hfloor⟩

/-! ## Words of 64 bits -/

variable {word sets : UInt64} {size : UInt32}

theorem toNat_tag (hsize : size.toNat = m.lineSize) :
    (word - word % size.toUInt64).toNat = m.tag word.toNat := by
  have hmod : (word % size.toUInt64).toNat = word.toNat % m.lineSize := by
    rw [UInt64.toNat_mod, UInt32.toNat_toUInt64, hsize]
  have hle : word % size.toUInt64 ≤ word := by
    rw [UInt64.le_iff_toNat_le, hmod]
    exact Nat.mod_le ..
  rw [UInt64.toNat_sub_of_le _ _ hle, hmod]
  rfl

theorem toNat_setIndex (hsize : size.toNat = m.lineSize) (hsets : sets.toNat = m.sets) :
    (word / size.toUInt64 % sets).toNat = m.setIndex word.toNat := by
  rw [UInt64.toNat_mod, UInt64.toNat_div, UInt32.toNat_toUInt64, hsize, hsets]
  rfl

/-! ## The laws -/

/-- What holds of the tags and the sets of all addresses. -/
structure SpreadLaws (m : Mapping) : Prop where
  /-- The tag of an address is its block, the last one that begins at or before it. -/
  tag : ∀ addr, m.tag addr = m.block addr ∧ IsGreatest {base | m.lineSize ∣ base ∧ base ≤ addr} (m.tag addr)
  /-- The tag and the place within the block make up the address. -/
  whole : ∀ addr, m.tag addr + Block.offset m.lineSize addr = addr ∧ Block.offset m.lineSize addr < m.lineSize
  /-- The addresses of a block share its tag and its set. -/
  within : ∀ {base addr}, m.lineSize ∣ base → base ≤ addr → addr < base + m.lineSize →
    m.tag addr = base ∧ m.setIndex addr = m.setIndex base
  bounded : ∀ addr, (m.setIndex addr : Nat) < m.sets
  /-- Consecutive blocks belong to consecutive sets. -/
  next : ∀ addr k, m.tag (addr + k * m.lineSize) = m.tag addr + k * m.lineSize ∧
    (m.setIndex (addr + k * m.lineSize) : Nat) = (m.setIndex addr + k) % m.sets
  /-- As many consecutive blocks as there are sets meet every set once, wherever they begin. -/
  once : ∀ addr i, ∃! k, k < m.sets ∧ m.setIndex (addr + k * m.lineSize) = i
  /-- Of any number of consecutive blocks, the sets get equal shares, up to one block. -/
  even : ∀ addr n i, n / m.sets ≤ m.share addr n i ∧ m.share addr n i ≤ n ⌈/⌉ m.sets
  /-- Two blocks of one set are at least one block for every set apart. -/
  apart : ∀ {a b}, m.setIndex a = m.setIndex b → m.tag a < m.tag b + m.sets * m.lineSize →
    m.tag b < m.tag a + m.sets * m.lineSize → m.tag a = m.tag b
  /-- An address of 64 bits and a block size of 32 bits lead to the same tag and set. -/
  words : ∀ {word sets : UInt64} {size : UInt32}, size.toNat = m.lineSize → sets.toNat = m.sets →
    (word - word % size.toUInt64).toNat = m.tag word.toNat ∧
      (word / size.toUInt64 % sets).toNat = m.setIndex word.toNat

/-- There is a mapping of any blocks that are not empty to any number of sets but none, and it
spreads the blocks evenly and keeps them apart. -/
theorem spreadLaws {sets lineSize : Nat} (hs : 0 < sets) (hl : 0 < lineSize) :
    ∃ m, ofSizes? sets lineSize = .ok m ∧ m.sets = sets ∧ m.lineSize = lineSize ∧ m.SpreadLaws := by
  refine ⟨_, ofSizes?_eq_ok hs hl, rfl, rfl, ?_⟩
  generalize (⟨sets, lineSize, hs, hl⟩ : Mapping) = m
  exact
    { tag := fun addr => ⟨rfl, m.isGreatest_tag addr⟩
      whole := fun addr => ⟨Block.align_add_offset m.lineSize addr, Block.offset_lt m.lineSize_pos addr⟩
      within := fun {base addr} hbase hle hlt => by
        have htag := (tag_eq_iff hbase).mpr ⟨hle, hlt⟩
        exact ⟨htag, by rw [← htag, setIndex_tag]⟩
      bounded := fun addr => (m.setIndex addr).isLt
      next := fun addr k => ⟨m.tag_add_mul addr k, m.setIndex_add_mul addr k⟩
      once := fun addr i => by
        obtain ⟨k, hk, hunique⟩ := (m.bijective_setIndex addr).existsUnique i
        exact ⟨k, ⟨k.isLt, hk⟩, fun j ⟨hj, hset⟩ => congrArg Fin.val (hunique ⟨j, hj⟩ hset)⟩
      even := m.share_bounds
      apart := tag_eq_of_setIndex_eq
      words := fun hsize hsets => ⟨toNat_tag hsize, toNat_setIndex hsize hsets⟩ }

/-- The laws for three sets of blocks of 48 bytes: the last address lies in a block that is cut
short, the three blocks before it meet every set, and the first block that shares a set with
another one is exactly three blocks away. -/
theorem spreadLaws_of_three_sets :
    0 < 3 ∧ 0 < 48 ∧ ∃ m, ofSizes? 3 48 = .ok m ∧
      IsGreatest {base | m.lineSize ∣ base ∧ base ≤ 2 ^ 64 - 1} (2 ^ 64 - 16) ∧
      (∀ i, ∃! k, k < m.sets ∧ m.setIndex (2 ^ 64 - 160 + k * m.lineSize) = i) ∧
      m.setIndex 0 = m.setIndex 144 ∧ ¬ m.tag 144 < m.tag 0 + m.sets * m.lineSize := by
  obtain ⟨m, hm, -, -, laws⟩ := @spreadLaws 3 48 (by decide) (by decide)
  obtain rfl := Except.ok.inj hm
  exact ⟨by decide, by decide, _, hm, (laws.tag _).2, laws.once _, rfl, by decide⟩

end CacheSim.Mapping
