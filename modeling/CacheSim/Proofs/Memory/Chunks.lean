import CacheSim.Memory.Chunks
import CacheSim.Proofs.Memory.Flat

/-!
# Sparse bytes as a flat memory

A chunk is read and written like the flat memory of its bytes: `slice_eq_read`
and `byte_overlay`.
-/

namespace CacheSim.Chunks

variable {c : Chunks} {addr : Nat}

/-- Every chunk that is kept has its full size. -/
def Valid (c : Chunks) : Prop :=
  ∀ (base : Nat) (chunk : Bytes), c.table[base]? = some chunk → chunk.length = chunkSize

theorem valid_empty : Valid empty := fun base chunk h => by
  simp [empty] at h

theorem byte_empty (addr : Nat) : empty.byte addr = 0 := by
  have hchunk : empty.chunk (Block.align chunkSize addr) = List.replicate chunkSize 0 := by
    simp [chunk, empty, Block.zeros]
  rw [byte, hchunk, List.getD_eq_getElem?_getD, List.getElem?_replicate]
  split <;> rfl

theorem Valid.length_chunk (h : c.Valid) (base : Nat) : (c.chunk base).length = chunkSize := by
  unfold chunk
  cases hc : c.table[base]? with
  | none => simp [Std.TreeMap.get?_eq_getElem?, hc]
  | some chunk =>
    rw [Std.TreeMap.get?_eq_getElem?, hc]
    exact h base chunk hc

theorem table_setByte (c : Chunks) (addr : Nat) (b : UInt8) (base : Nat) :
    (c.setByte addr b).table[base]? =
      if Block.align chunkSize addr = base then
        some ((c.chunk (Block.align chunkSize addr)).set (Block.offset chunkSize addr) b)
      else c.table[base]? := by
  simp only [setByte, Std.TreeMap.getElem?_insert, Std.LawfulEqCmp.compare_eq_iff_eq]

theorem Valid.setByte (h : c.Valid) (addr : Nat) (b : UInt8) : (c.setByte addr b).Valid := by
  intro base chunk hc
  rw [table_setByte] at hc
  split at hc
  · obtain rfl := Option.some.inj hc
    rw [List.length_set, h.length_chunk]
  · exact h base chunk hc

theorem Valid.byte_setByte (h : c.Valid) (addr : Nat) (b : UInt8) (a : Nat) :
    (c.setByte addr b).byte a = if a = addr then b else c.byte a := by
  have hchunk : (c.setByte addr b).chunk (Block.align chunkSize a) =
      if Block.align chunkSize addr = Block.align chunkSize a then
        (c.chunk (Block.align chunkSize addr)).set (Block.offset chunkSize addr) b
      else c.chunk (Block.align chunkSize a) := by
    rw [chunk, Std.TreeMap.get?_eq_getElem?, table_setByte]
    split <;> rfl
  have hlt : Block.offset chunkSize addr < (c.chunk (Block.align chunkSize addr)).length := by
    rw [h.length_chunk]
    exact Block.offset_lt (by decide) addr
  have haddr := Block.align_add_offset chunkSize addr
  have ha := Block.align_add_offset chunkSize a
  rw [byte, hchunk]
  by_cases hal : Block.align chunkSize addr = Block.align chunkSize a
  · rw [if_pos hal, byte, ← hal, List.getD_eq_getElem?_getD, List.getD_eq_getElem?_getD,
      List.getElem?_set]
    by_cases hoff : Block.offset chunkSize addr = Block.offset chunkSize a
    · rw [if_pos hoff, if_pos hlt, if_pos (by omega)]
      rfl
    · rw [if_neg hoff, if_neg (by omega)]
  · rw [if_neg hal, if_neg fun e => hal (by rw [e]), byte]

theorem Valid.overlay (h : c.Valid) (addr : Nat) (data : Bytes) : (c.overlay addr data).Valid := by
  induction data generalizing c addr with
  | nil => exact h
  | cons b rest ih => exact ih (h.setByte addr b) (addr + 1)

/-- Changing bytes is writing them. -/
theorem Valid.byte_overlay (h : c.Valid) (addr : Nat) (data : Bytes) :
    (c.overlay addr data).byte = FlatMemory.write c.byte addr data := by
  induction data generalizing c addr with
  | nil =>
    funext a
    simp [Chunks.overlay, FlatMemory.write]
  | cons b rest ih =>
    funext a
    rw [Chunks.overlay, ih (h.setByte addr b)]
    by_cases hlt : a < addr
    · rw [FlatMemory.write_apply_of_lt _ _ (by omega), FlatMemory.write_apply_of_lt _ _ hlt,
        h.byte_setByte, if_neg (by omega)]
    by_cases heq : a = addr
    · subst heq
      rw [FlatMemory.write_apply_of_lt _ _ (by omega), h.byte_setByte, if_pos rfl,
        FlatMemory.write_apply_of_mem _ (Nat.le_refl a) (by simp) 0]
      simp
    by_cases hle : addr + (b :: rest).length ≤ a
    · have hlen : addr + 1 + rest.length ≤ a := by rw [List.length_cons] at hle; omega
      rw [FlatMemory.write_apply_of_le _ hlen, FlatMemory.write_apply_of_le _ hle, h.byte_setByte,
        if_neg heq]
    · rw [List.length_cons] at hle
      rw [FlatMemory.write_apply_of_mem _ (by omega) (by omega) 0,
        FlatMemory.write_apply_of_mem _ (by omega) (by rw [List.length_cons]; omega) 0,
        show a - addr = a - (addr + 1) + 1 by omega]
      simp

/-- The bytes of a range are those of the flat memory. -/
theorem slice_eq_read (c : Chunks) (addr size : Nat) :
    c.slice addr size = FlatMemory.read c.byte addr size := by
  induction size generalizing addr with
  | zero => rfl
  | succ size ih =>
    rw [slice, ih, FlatMemory.read, FlatMemory.read, List.range_succ_eq_map, List.map_cons, List.map_map]
    refine congrArg _ (List.map_congr_left fun i _ => ?_)
    rw [Function.comp, show addr + 1 + i = addr + (i + 1) by omega]

end CacheSim.Chunks
