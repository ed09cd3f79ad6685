import CacheSim.Packet.Payload

/-!
# Flat memories

One byte for every address, and what a packet does to it: a write puts its
payload in place, and a read is answered with the bytes of its range.  This is
what the traffic through a cache is compared with.

* `slice_read`, `overlay_read`: taking bytes out of a block and putting bytes
  into it is reading and writing the memory that the block is read from;
* `after_append`, `answers_append`: packets are performed one after another.
-/

namespace CacheSim

/-- A byte for every address. -/
abbrev FlatMemory := Nat → UInt8

namespace FlatMemory

/-- The `size` bytes from an address on. -/
def read (m : FlatMemory) (addr size : Nat) : Bytes :=
  (List.range size).map fun i => m (addr + i)

/-- The memory with the bytes from an address on replaced by `data`. -/
def write (m : FlatMemory) (addr : Nat) (data : Bytes) : FlatMemory := fun a =>
  if addr ≤ a then data.getD (a - addr) (m a) else m a

/-- The memory after a packet: a write is performed and a read changes nothing. -/
def perform (m : FlatMemory) (p : Packet) : FlatMemory :=
  if p.command.isWrite then m.write p.addr (p.payload.getD []) else m

/-- The packet turned into its answer: a read carries the bytes of its range
and a write keeps its payload. -/
def answer (m : FlatMemory) (p : Packet) : Packet :=
  { p with
    command := p.command.response?.getD p.command
    payload := if p.command.isWrite then p.payload else some (m.read p.addr p.size) }

/-- The memory after packets, performed in order. -/
def after (m : FlatMemory) (ps : List Packet) : FlatMemory :=
  ps.foldl perform m

/-- The answers to packets performed in order; a writeback has none. -/
def answers (m : FlatMemory) : List Packet → List Packet
  | [] => []
  | p :: ps =>
    if p.command.needsResponse then m.answer p :: (m.perform p).answers ps
    else (m.perform p).answers ps

/-- The answers to those of the packets that came from port `id`. -/
def answersOn (m : FlatMemory) (id : Nat) : List (Nat × Packet) → List Packet
  | [] => []
  | (j, p) :: rest => (if j = id then [m.answer p] else []) ++ (m.perform p).answersOn id rest

variable {m : FlatMemory}

@[simp] theorem length_read (m : FlatMemory) (addr size : Nat) : (m.read addr size).length = size := by
  simp [read]

theorem getElem?_read (m : FlatMemory) (addr size i : Nat) :
    (m.read addr size)[i]? = if i < size then some (m (addr + i)) else none := by
  by_cases h : i < size <;> simp [read, h]

theorem getD_read (m : FlatMemory) (addr : Nat) {size i : Nat} (h : i < size) (d : UInt8) :
    (m.read addr size).getD i d = m (addr + i) := by
  rw [List.getD_eq_getElem?_getD, getElem?_read, if_pos h, Option.getD_some]

theorem read_congr {m' : FlatMemory} {addr size : Nat}
    (h : ∀ i < size, m' (addr + i) = m (addr + i)) : m'.read addr size = m.read addr size :=
  List.map_congr_left fun i hi => h i (List.mem_range.mp hi)

theorem write_apply_of_lt (m : FlatMemory) {addr a : Nat} (data : Bytes) (h : a < addr) :
    m.write addr data a = m a :=
  if_neg (by omega)

theorem write_apply_of_le (m : FlatMemory) {addr a : Nat} {data : Bytes}
    (h : addr + data.length ≤ a) : m.write addr data a = m a := by
  unfold write
  rw [if_pos (by omega), List.getD_eq_getElem?_getD, List.getElem?_eq_none (by omega)]
  rfl

theorem write_apply_of_mem (m : FlatMemory) {addr a : Nat} {data : Bytes} (h₁ : addr ≤ a)
    (h₂ : a < addr + data.length) (d : UInt8) : m.write addr data a = data.getD (a - addr) d := by
  unfold write
  have hi : a - addr < data.length := by omega
  rw [if_pos h₁, List.getD_eq_getElem?_getD, List.getD_eq_getElem?_getD,
    List.getElem?_eq_getElem hi]
  rfl

/-- A write is read back. -/
@[simp] theorem read_write_self (m : FlatMemory) (addr : Nat) (data : Bytes) :
    (m.write addr data).read addr data.length = data := by
  apply List.ext_getElem
  · exact length_read ..
  · intro i _ h
    have := write_apply_of_mem m (Nat.le_add_right addr i) (Nat.add_lt_add_left h addr) 0
    simpa [read, List.getD_eq_getElem?_getD, h] using this

/-- A write of the bytes of a memory that differs nowhere else makes this memory. -/
theorem write_read_of_eq {m' : FlatMemory} {addr size : Nat}
    (h : ∀ a, a < addr ∨ addr + size ≤ a → m a = m' a) : m.write addr (m'.read addr size) = m' := by
  funext a
  by_cases h₁ : a < addr
  · rw [write_apply_of_lt m _ h₁, h a (.inl h₁)]
  by_cases h₂ : a < addr + size
  · rw [write_apply_of_mem m (by omega) (by simpa using h₂) 0, getD_read _ _ (by omega),
      show addr + (a - addr) = a by omega]
  · rw [write_apply_of_le m (by simp; omega), h a (.inr (by omega))]

/-- Writing what is there changes nothing. -/
theorem write_read (m : FlatMemory) (addr size : Nat) : m.write addr (m.read addr size) = m :=
  write_read_of_eq fun _ _ => rfl

/-! ## Blocks -/

/-- Bytes taken out of a block are bytes of the memory. -/
theorem slice_read (m : FlatMemory) (base : Nat) {n offset size : Nat} (h : offset + size ≤ n) :
    Block.slice (m.read base n) offset size = m.read (base + offset) size := by
  apply List.ext_getElem
  · rw [Block.length_slice (by simpa using h), length_read]
  · intro i h₁ h₂
    simp [Block.slice, read, Nat.add_assoc]

/-- Bytes put into a block are written to the memory. -/
theorem overlay_read (m : FlatMemory) (base : Nat) {n offset : Nat} {data : Bytes}
    (h : offset + data.length ≤ n) :
    Block.overlay (m.read base n) offset data = (m.write (base + offset) data).read base n := by
  apply List.ext_getElem?
  intro i
  rw [getElem?_read]
  simp only [Block.overlay, List.append_assoc]
  by_cases h₁ : i < offset
  · rw [List.getElem?_append_left (by simp; omega), List.getElem?_take_of_lt h₁, getElem?_read,
      if_pos (by omega), if_pos (by omega), write_apply_of_lt _ _ (by omega)]
  rw [List.getElem?_append_right (by simp; omega), List.length_take, length_read,
    Nat.min_eq_left (by omega)]
  by_cases h₂ : i < offset + data.length
  · rw [List.getElem?_append_left (by omega), if_pos (by omega),
      write_apply_of_mem _ (by omega) (by omega) 0, List.getD_eq_getElem?_getD,
      show base + i - (base + offset) = i - offset by omega,
      List.getElem?_eq_getElem (by omega), Option.getD_some]
  · rw [List.getElem?_append_right (by omega), List.getElem?_drop, getElem?_read,
      show offset + data.length + (i - offset - data.length) = i by omega]
    by_cases h₃ : i < n
    · rw [if_pos h₃, if_pos h₃, write_apply_of_le _ (by omega)]
    · rw [if_neg h₃, if_neg h₃]

/-! ## Packets one after another -/

theorem perform_of_read (m : FlatMemory) {p : Packet} (h : p.command.isWrite = false) :
    m.perform p = m := by
  simp [perform, h]

theorem perform_of_write (m : FlatMemory) {p : Packet} {data : Bytes} (h : p.command.isWrite)
    (hd : p.payload = some data) : m.perform p = m.write p.addr data := by
  simp [perform, h, hd]

@[simp] theorem after_nil (m : FlatMemory) : m.after [] = m := rfl

@[simp] theorem after_cons (m : FlatMemory) (p : Packet) (ps : List Packet) :
    m.after (p :: ps) = (m.perform p).after ps := rfl

theorem after_append (m : FlatMemory) (ps qs : List Packet) :
    m.after (ps ++ qs) = (m.after ps).after qs :=
  List.foldl_append

@[simp] theorem answers_nil (m : FlatMemory) : m.answers [] = [] := rfl

theorem answers_cons_of_needsResponse (m : FlatMemory) {p : Packet} (ps : List Packet)
    (h : p.command.needsResponse) : m.answers (p :: ps) = m.answer p :: (m.perform p).answers ps :=
  if_pos h

theorem answers_cons_of_not_needsResponse (m : FlatMemory) {p : Packet} (ps : List Packet)
    (h : p.command.needsResponse = false) : m.answers (p :: ps) = (m.perform p).answers ps :=
  if_neg (by simp [h])

theorem answers_eq_nil_iff {ps : List Packet} :
    m.answers ps = [] ↔ ∀ p ∈ ps, p.command.needsResponse = false := by
  induction ps generalizing m with
  | nil => simp
  | cons p ps ih => cases hp : p.command.needsResponse <;> simp [answers, hp, ih]

theorem answers_append (m : FlatMemory) (ps qs : List Packet) :
    m.answers (ps ++ qs) = m.answers ps ++ (m.after ps).answers qs := by
  induction ps generalizing m with
  | nil => rfl
  | cons p ps ih =>
    cases h : p.command.needsResponse with
    | true =>
      rw [List.cons_append, answers_cons_of_needsResponse m _ h, answers_cons_of_needsResponse m _ h,
        ih, List.cons_append, after_cons]
    | false =>
      rw [List.cons_append, answers_cons_of_not_needsResponse m _ h,
        answers_cons_of_not_needsResponse m _ h, ih, after_cons]

/-- Which packets are answered does not depend on the memory. -/
theorem answers_eq_singleton {ps : List Packet} {a : Packet} (h : m.answers ps = [a]) :
    ∃ p ∈ ps, p.command.needsResponse ∧ (∃ m₁ : FlatMemory, a = m₁.answer p) ∧
      ∀ m' : FlatMemory, ∃ m₂ : FlatMemory, m'.answers ps = [m₂.answer p] := by
  induction ps generalizing m with
  | nil => cases h
  | cons p ps ih =>
    cases hp : p.command.needsResponse with
    | true =>
      rw [answers_cons_of_needsResponse m _ hp] at h
      obtain ⟨ha, hrest⟩ := List.cons.inj h
      refine ⟨p, List.mem_cons_self .., hp, ⟨m, ha.symm⟩, fun m' => ⟨m', ?_⟩⟩
      rw [answers_cons_of_needsResponse m' _ hp, answers_eq_nil_iff.mpr (answers_eq_nil_iff.mp hrest)]
    | false =>
      rw [answers_cons_of_not_needsResponse m _ hp] at h
      obtain ⟨q, hq, hr, hm, hall⟩ := ih h
      refine ⟨q, List.mem_cons_of_mem p hq, hr, hm, fun m' => ?_⟩
      rw [answers_cons_of_not_needsResponse m' _ hp]
      exact hall _

/-- A packet more is answered on its own port. -/
theorem answersOn_concat (m : FlatMemory) (id : Nat) (done : List (Nat × Packet)) (j : Nat) (p : Packet) :
    m.answersOn id (done ++ [(j, p)]) =
      m.answersOn id done ++ if j = id then [(m.after (done.map (·.2))).answer p] else [] := by
  induction done generalizing m with
  | nil => simp [answersOn]
  | cons d done ih =>
    obtain ⟨i, q⟩ := d
    rw [List.cons_append, answersOn, answersOn, ih, List.append_assoc]
    rfl

end FlatMemory

end CacheSim
