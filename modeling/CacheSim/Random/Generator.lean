import CacheSim.Fault

/-!
# Random indices

A store draws indices from a `Generator`.  All that it relies on is in `IndexSource`:
an index lies below its bound, and to draw one takes something from the source.
-/

namespace CacheSim

/-- A source of random indices, which depend on how much was taken before. -/
structure IndexSource where
  /-- The index below `n` after `taken` words, and the number of words taken then. -/
  draw : (n taken : Nat) → Nat × Nat
  draw_lt : ∀ {n} taken, 0 < n → (draw n taken).1 < n
  lt_draw : ∀ {n} taken, 0 < n → taken < (draw n taken).2

/-- A source and how far it was read. -/
structure Generator where
  source : IndexSource
  taken : Nat := 0

namespace Generator

/-- A random index below `n`. -/
def index (g : Generator) (n : Nat) : Except Fault (Nat × Generator) :=
  if n = 0 then .error .emptyRange
  else .ok ((g.source.draw n g.taken).1, { g with taken := (g.source.draw n g.taken).2 })

theorem index_of_pos (g : Generator) {n : Nat} (h : 0 < n) : ∃ i g', g.index n = .ok (i, g') ∧ i < n :=
  ⟨_, _, if_neg (Nat.ne_of_gt h), g.source.draw_lt g.taken h⟩

variable {g g' : Generator} {n i : Nat}

theorem index_eq_ok (h : g.index n = .ok (i, g')) :
    0 < n ∧ i = (g.source.draw n g.taken).1 ∧ g' = { g with taken := (g.source.draw n g.taken).2 } := by
  unfold index at h
  split at h
  · cases h
  · obtain ⟨rfl, rfl⟩ := Prod.mk.inj (Except.ok.inj h)
    exact ⟨Nat.pos_of_ne_zero ‹_›, rfl, rfl⟩

theorem index_lt (h : g.index n = .ok (i, g')) : i < n := by
  obtain ⟨hpos, rfl, -⟩ := index_eq_ok h
  exact g.source.draw_lt g.taken hpos

/-- A generator that was asked is not what it was. -/
theorem taken_lt_of_index (h : g.index n = .ok (i, g')) : g.taken < g'.taken := by
  obtain ⟨hpos, -, rfl⟩ := index_eq_ok h
  exact g.source.lt_draw g.taken hpos

end Generator

end CacheSim
