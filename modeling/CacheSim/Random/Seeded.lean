import CacheSim.Random.Generator
import CacheSim.Random.KeyStream

/-!
# Generators from a seed

The key of a stream is made from a seed, and indices are drawn from its words
without a bias: a word that falls into the last, incomplete share of the range is
passed over (`Passes`).  A draw gives up once it passed over `patience` words;
until then, it is that of the first word that counts (`draw_of_passes`).
-/

namespace CacheSim

namespace KeyStream

/-- The states of the seeding recurrence, one per key word. -/
def seedStates (seed : UInt64) : Nat → List UInt64
  | 0 => []
  | n + 1 =>
    let s := seed * 6364136223846793005 + 11634580027462260723
    s :: seedStates s n

/-- The key word of a state: its high bits mixed and rotated by the highest five. -/
def keyWord (state : UInt64) : UInt32 :=
  let x := (((state >>> 18) ^^^ state) >>> 27).toUInt32
  let r := (state >>> 59).toUInt32
  (x >>> r) ||| (x <<< ((32 - r) % 32))

/-- The key made from a seed. -/
def keyOfSeed (seed : Nat) : Key :=
  let ws := (seedStates (UInt64.ofNat seed) 8).map keyWord
  Vector.ofFn fun i => ws.getD i 0

/-- The greatest low half of a product that is not passed over: the multiple of
the bound below the number of words with the highest bit set, less one. -/
def zone (n : Nat) : Nat :=
  (n <<< (63 - n.log2)) - 1

/-- The low half of the product of a word and the bound lies within the zone. -/
def accepts (n w : Nat) : Bool :=
  w * n % UInt64.size ≤ zone n

/-- How many words a draw passes over at most.  Each is passed over with a
chance below one half. -/
def patience : Nat := 4096

/-- Draws below `n` after `taken` words: the high half of the product with the
first word that is not passed over. -/
def draw (key : Key) (n : Nat) : (patience taken : Nat) → Nat × Nat
  | 0, taken => (0, taken)
  | patience + 1, taken =>
    if accepts n (word key taken) then (word key taken * n / UInt64.size, taken + 1)
    else draw key n patience (taken + 1)

variable {key : Key} {n : Nat}

theorem draw_lt (h : 0 < n) (patience taken : Nat) : (draw key n patience taken).1 < n := by
  induction patience generalizing taken with
  | zero => exact h
  | succ patience ih =>
    unfold draw
    split
    · exact Nat.div_lt_of_lt_mul (Nat.mul_lt_mul_of_pos_right (word_lt key taken) h)
    · exact ih (taken + 1)

/-- A draw takes a word at least, if it has any patience. -/
theorem le_draw (n patience taken : Nat) :
    min patience 1 + taken ≤ (draw key n patience taken).2 := by
  induction patience generalizing taken with
  | zero => exact Nat.le_of_eq (Nat.zero_add _)
  | succ patience ih =>
    unfold draw
    split
    · show _ ≤ taken + 1
      omega
    · have hrest := ih (taken + 1)
      omega

/-- The words from number `taken` on are passed over up to number `last`, which
is not. -/
structure Passes (key : Key) (n taken last : Nat) : Prop where
  le : taken ≤ last
  passed : ∀ i, taken ≤ i → i < last → accepts n (word key i) = false
  accepted : accepts n (word key last)

/-- Patience does not matter as long as it lasts. -/
theorem draw_of_passes {patience taken last : Nat} (h : Passes key n taken last) (hlast : last < taken + patience) :
    draw key n patience taken = (word key last * n / UInt64.size, last + 1) := by
  induction patience generalizing taken with
  | zero => exact absurd h.le (Nat.not_le.mpr hlast)
  | succ patience ih =>
    unfold draw
    rcases Nat.eq_or_lt_of_le h.le with rfl | hlt
    · rw [if_pos h.accepted]
    · rw [if_neg (by simp [h.passed taken (Nat.le_refl _) hlt])]
      exact ih ⟨hlt, fun i hi => h.passed i (Nat.le_of_succ_le hi), h.accepted⟩ (by omega)

/-- The indices of a stream. -/
def source (key : Key) : IndexSource where
  draw n taken := draw key n patience taken
  draw_lt taken h := draw_lt h patience taken
  lt_draw {n} taken _ := by
    have htaken : min patience 1 + taken ≤ (draw key n patience taken).2 := le_draw n patience taken
    have hpatience : 0 < patience := by decide
    omega

end KeyStream

/-- The generator of a seed. -/
def Generator.seeded (seed : Nat) : Generator :=
  { source := KeyStream.source (KeyStream.keyOfSeed seed) }

end CacheSim
