import CacheSim.Store.Replacement

/-!
# Victims

Among candidates there is always a victim, whatever the policy, and that of LRU
has the least time of all.
-/

namespace CacheSim

theorem leastIndex?_eq_some {times : List Nat} (h : times ≠ []) :
    ∃ i, leastIndex? times = some i ∧ i < times.length := by
  cases hm : times.min? with
  | none => exact absurd (List.min?_eq_none_iff.mp hm) h
  | some m =>
    have mem : m ∈ times := List.min?_mem hm
    exact ⟨times.idxOf m, by simp [leastIndex?, hm], List.idxOf_lt_length_of_mem mem⟩

/-- No candidate was accessed before the one at the least place. -/
theorem le_of_leastIndex? {times : List Nat} {i : Nat} (h : leastIndex? times = some i) :
    ∃ hi : i < times.length, ∀ t ∈ times, times[i] ≤ t := by
  obtain ⟨m, hm, rfl⟩ := Option.map_eq_some_iff.mp h
  obtain ⟨hmem, hle⟩ := List.min?_eq_some_iff.mp hm
  refine ⟨List.idxOf_lt_length_of_mem hmem, fun t ht => ?_⟩
  rw [List.getElem_idxOf]
  exact hle t ht

/-- The victim of LRU, which draws nothing. -/
theorem Policy.victim?_lru {times : List Nat} (h : times ≠ []) (g : Generator) :
    ∃ i, ∃ hi : i < times.length, Policy.lru.victim? times g = .ok (some i, g) ∧ ∀ t ∈ times, times[i] ≤ t := by
  obtain ⟨i, hi, -⟩ := leastIndex?_eq_some h
  obtain ⟨hlt, hle⟩ := le_of_leastIndex? hi
  exact ⟨i, hlt, by simp [victim?, h, hi], hle⟩

/-- The place of a victim, and the generator afterwards. -/
theorem Policy.victim?_eq_ok (policy : Policy) {times : List Nat} (h : times ≠ []) (g : Generator) :
    ∃ i g', policy.victim? times g = .ok (some i, g') ∧ i < times.length := by
  have hlen : times.length ≠ 0 := fun e => h (List.eq_nil_of_length_eq_zero e)
  have hempty : times.isEmpty = false := by simp [h]
  cases policy with
  | random =>
    obtain ⟨i, g', hi, hlt⟩ := g.index_of_pos (Nat.pos_of_ne_zero hlen)
    refine ⟨i, g', ?_, hlt⟩
    simp only [victim?, hempty, hi]
    rfl
  | lru =>
    obtain ⟨i, hi, hlt⟩ := leastIndex?_eq_some h
    exact ⟨i, g, by simp [victim?, hempty, hi], hlt⟩

end CacheSim
