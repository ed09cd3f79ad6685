import CacheSim.Word
import CacheSim.Text.Hex

/-!
# Blocks

Memory is divided into blocks of equal size, and a block is named by the
address of its first byte.  `align` finds the block of an address; `overlay`
and `slice` move bytes between a block and a part of it.
-/

namespace CacheSim.Block

/-- The first address of the block that contains `addr`. -/
def align (size addr : Nat) : Nat :=
  addr - addr % size

/-- The block of an address, for a block size that may be zero. -/
def align? (size addr : Nat) : Except Fault Nat :=
  if size = 0 then .error .remainderByZero else .ok (align size addr)

/-- The place of an address within its block. -/
def offset (size addr : Nat) : Nat :=
  addr % size

/-- The place of an address within its block, for a block size that may be zero. -/
def offset? (size addr : Nat) : Except Fault Nat :=
  if size = 0 then .error .remainderByZero else .ok (offset size addr)

/-- The bytes of `block` with those from `offset` on replaced by `data`. -/
def overlay (block : Bytes) (offset : Nat) (data : Bytes) : Bytes :=
  block.take offset ++ data ++ block.drop (offset + data.length)

/-- The `size` bytes of `block` from `offset` on. -/
def slice (block : Bytes) (offset size : Nat) : Bytes :=
  (block.drop offset).take size

/-- A block of zeros. -/
def zeros (size : Nat) : Bytes :=
  List.replicate size 0

theorem align_add_offset (size addr : Nat) : align size addr + offset size addr = addr := by
  have := Nat.mod_le addr size
  unfold align offset; omega

theorem align_eq_mul (size addr : Nat) : align size addr = size * (addr / size) := by
  have := Nat.div_add_mod addr size
  unfold align; omega

theorem dvd_align (size addr : Nat) : size ∣ align size addr :=
  ⟨addr / size, align_eq_mul size addr⟩

theorem align_le (size addr : Nat) : align size addr ≤ addr :=
  Nat.sub_le ..

theorem offset_lt {size : Nat} (h : 0 < size) (addr : Nat) : offset size addr < size :=
  Nat.mod_lt addr h

@[simp] theorem align_align (size addr : Nat) : align size (align size addr) = align size addr := by
  show align size addr - align size addr % size = align size addr
  rw [Nat.mod_eq_zero_of_dvd (dvd_align size addr), Nat.sub_zero]

@[simp] theorem align?_of_pos {size : Nat} (h : 0 < size) (addr : Nat) :
    align? size addr = .ok (align size addr) :=
  if_neg (by omega)

@[simp] theorem length_zeros (size : Nat) : (zeros size).length = size :=
  List.length_replicate

theorem length_overlay {block data : Bytes} {offset : Nat}
    (h : offset + data.length ≤ block.length) :
    (overlay block offset data).length = block.length := by
  simp only [overlay, List.length_append, List.length_take, List.length_drop]
  omega

theorem length_slice {block : Bytes} {offset size : Nat} (h : offset + size ≤ block.length) :
    (slice block offset size).length = size := by
  simp only [slice, List.length_take, List.length_drop]
  omega

end CacheSim.Block
