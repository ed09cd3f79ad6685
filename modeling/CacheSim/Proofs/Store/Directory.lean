import CacheSim.Block
import CacheSim.Store.Line

/-!
# Directories

What a store keeps under the address of every block, whatever its
organisation.  `Sound` says that the lines stand under their tags and hold
whole blocks.  `Inserted` says what an insertion does: the new line stands
under its address, the victim was resident and is gone, and everything else is
as it was.
-/

namespace CacheSim

/-- The line kept under an address. -/
abbrev Directory := Nat → Option Line

namespace Directory

/-- Every line stands under its tag, begins a block and holds a block. -/
structure Sound (d : Directory) (size : Nat) : Prop where
  tag : ∀ {a l}, d a = some l → l.tag = a
  dvd : ∀ {a l}, d a = some l → size ∣ a
  length : ∀ {a l}, d a = some l → l.data.length = size

/-- The directory `e` is `d` with a line placed under `addr`, in the place of a
victim if there is one. -/
structure Inserted (d e : Directory) (addr : Nat) (line : Line) (victim : Option Line) : Prop where
  fresh : e addr = some line
  resident : ∀ v ∈ victim, d v.tag = some v
  evicted : ∀ v ∈ victim, e v.tag = none
  others : ∀ b, b ≠ addr → (∀ v ∈ victim, b ≠ v.tag) → e b = d b

/-- The directory `e` is `d` with the line under `addr`, if there is one,
changed by `f`. -/
def Updated (d e : Directory) (addr : Nat) (f : Line → Line) : Prop :=
  ∀ b, e b = if b = addr then (d b).map f else d b

variable {d e : Directory} {addr size : Nat}

theorem Updated.apply_of_ne {f : Line → Line} (h : Updated d e addr f) {b : Nat} (hb : b ≠ addr) :
    e b = d b := by
  rw [h b, if_neg hb]

theorem Updated.apply_self {f : Line → Line} (h : Updated d e addr f) : e addr = (d addr).map f := by
  rw [h addr, if_pos rfl]

theorem Updated.isSome_iff {f : Line → Line} (h : Updated d e addr f) (b : Nat) :
    (e b).isSome ↔ (d b).isSome := by
  rw [h b]
  split <;> simp

theorem Updated.eq_none_iff {f : Line → Line} (h : Updated d e addr f) (b : Nat) : e b = none ↔ d b = none := by
  rw [h b]
  split <;> simp

/-- What is resident after an insertion was so before, or is the new line. -/
theorem Inserted.of_some {line l : Line} {victim : Option Line} (h : Inserted d e addr line victim)
    {b : Nat} (hb : e b = some l) : b = addr ∧ l = line ∨ d b = some l := by
  by_cases ha : b = addr
  · subst ha
    exact .inl ⟨rfl, Option.some.inj (hb.symm.trans h.fresh)⟩
  · refine .inr ?_
    rw [← h.others b ha fun v hv hne => ?_, hb]
    rw [hne, h.evicted v hv] at hb
    cases hb

end Directory

end CacheSim
