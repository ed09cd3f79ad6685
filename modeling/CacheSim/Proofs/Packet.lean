import CacheSim.Proofs.Memory.Flat

/-!
# Accesses within a block

The packets that requestors send: a read, or a write with its payload, that
lies within one block.  Every way to make a packet puts it around the first
byte of its request (`aroundRequest_ofRequest`, `aroundRequest_of_ofBlock?`),
so the packet and its request lie in the same block
(`IsAccess.align_request`), which is the one that an upgrade fetches.
-/

namespace CacheSim

namespace Block

/-- The addresses of a block. -/
theorem align_eq_iff {size base addr : Nat} (hs : 0 < size) (hb : size ∣ base) :
    align size addr = base ↔ base ≤ addr ∧ addr < base + size := by
  obtain ⟨k, rfl⟩ := hb
  have hlt := Nat.mod_lt addr hs
  have hdiv := Nat.div_add_mod addr size
  rw [align_eq_mul]
  constructor
  · intro h
    rw [h] at hdiv
    omega
  · rintro ⟨h₁, h₂⟩
    have hk : addr / size = k := by
      rw [Nat.div_eq_iff hs]
      constructor
      · rw [Nat.mul_comm]; exact h₁
      · rw [Nat.mul_comm]; omega
    rw [hk]

theorem align_of_dvd {size base : Nat} (hb : size ∣ base) : align size base = base := by
  show base - base % size = base
  rw [Nat.mod_eq_zero_of_dvd hb, Nat.sub_zero]

/-- An address lies at its offset behind the start of its block. -/
theorem eq_add_offset {size base addr : Nat} (h : align size addr = base) :
    addr = base + offset size addr := by
  rw [← h, align_add_offset]

theorem offset_eq_sub {size base addr : Nat} (h : align size addr = base) :
    offset size addr = addr - base := by
  have := eq_add_offset h
  omega

end Block

/-- A write of a block changes the addresses that are aligned to it. -/
theorem FlatMemory.write_block_apply (m : FlatMemory) {size addr : Nat} {data : Bytes} (hs : 0 < size)
    (hd : size ∣ addr) (hl : data.length = size) (a : Nat) (d : UInt8) :
    m.write addr data a =
      if Block.align size a = addr then data.getD (Block.offset size a) d else m a := by
  have hr : Block.align size a = addr ↔ addr ≤ a ∧ a < addr + size := Block.align_eq_iff hs hd
  split
  · rename_i ha
    have := hr.mp ha
    rw [m.write_apply_of_mem this.1 (by omega) d, Block.offset_eq_sub ha]
  · rename_i ha
    have := mt hr.mpr ha
    rcases Nat.lt_or_ge a addr with hlt | hge
    · exact m.write_apply_of_lt data hlt
    · exact m.write_apply_of_le (by omega)

namespace Packet

variable {p : Packet} {size : Nat}

/-- A write carries as many bytes as it writes. -/
def Carries (p : Packet) : Prop :=
  p.command.isWrite → ∃ data, p.payload = some data ∧ data.length = p.size

/-- The packet begins with its request, or reaches around its first byte. -/
def AroundRequest (p : Packet) : Prop :=
  p.request.addr = p.addr ∨ p.addr ≤ p.request.addr ∧ p.request.addr < p.addr + p.size

/-- A read, or a write with its payload, within one block. -/
structure IsAccess (p : Packet) (size : Nat) : Prop where
  needsResponse : p.command.needsResponse
  fits : p.Fits size
  carries : p.Carries
  aroundRequest : p.AroundRequest

theorem aroundRequest_ofRequest (r : Request) (c : Command) : (ofRequest r c).AroundRequest :=
  .inl rfl

theorem aroundRequest_of_ofBlock? {r : Request} {c : Command} (h : ofBlock? r c size = .ok p) :
    p.AroundRequest := by
  unfold ofBlock? Block.align? at h
  split at h
  · cases h
  · rename_i hs
    obtain rfl := Except.ok.inj h
    have := Block.align_add_offset size r.addr
    have := Block.offset_lt (Nat.pos_of_ne_zero hs) r.addr
    exact .inr ⟨Block.align_le .., by show r.addr < Block.align size r.addr + size; omega⟩

theorem addr_eq (p : Packet) (size : Nat) : p.addr = p.block size + p.offset size :=
  (Block.align_add_offset size p.addr).symm

theorem dvd_block (p : Packet) (size : Nat) : size ∣ p.block size :=
  Block.dvd_align size p.addr

/-- The request of an access lies in the block of its packet. -/
theorem IsAccess.align_request (h : p.IsAccess size) (hs : 0 < size) :
    Block.align size p.request.addr = p.block size := by
  rw [Block.align_eq_iff hs (p.dvd_block size)]
  have hoff : p.offset size < size := Block.offset_lt hs p.addr
  have haddr := p.addr_eq size
  have hfits : p.offset size + p.size ≤ size := h.fits
  rcases h.aroundRequest with h | h <;> omega

/-- The packet that fetches a whole block for the request. -/
def blockRead (p : Packet) (size : Nat) : Packet :=
  { request := p.request, addr := p.block size, size, command := .readReq
    payload := some (Block.zeros size) }

theorem IsAccess.ofBlock? (h : p.IsAccess size) (hs : 0 < size) :
    ∃ f, ofBlock? p.request .readReq size = .ok f ∧ f.allocate = p.blockRead size := by
  simp only [Packet.ofBlock?, Block.align?_of_pos hs, h.align_request hs]
  exact ⟨_, rfl, rfl⟩

/-- The packet is over a whole block. -/
structure IsBlock (p : Packet) (size : Nat) : Prop where
  dvd : size ∣ p.addr
  size_eq : p.size = size
  carries : p.Carries

theorem isBlock_writeback {tag : Nat} {data : Bytes} (hd : size ∣ tag) (hl : data.length = size) :
    (writeback tag data).IsBlock size :=
  ⟨hd, hl, fun _ => ⟨data, rfl, rfl⟩⟩

/-- The packet that is kept while its block is fetched: none, if it is over the
whole block and fetches that itself. -/
def kept (p : Packet) (size : Nat) : Option Packet :=
  if p.addr = p.block size ∧ p.size = size then none else some p

/-- The packet that fetches the block of an access. -/
def fetch (p : Packet) (size : Nat) : Packet :=
  if p.addr = p.block size ∧ p.size = size then p else p.blockRead size

theorem addr_fetch (p : Packet) (size : Nat) : (p.fetch size).addr = p.block size := by
  unfold fetch
  split
  · rename_i h
    exact h.1
  · rfl

theorem IsAccess.isBlock_fetch (h : p.IsAccess size) : (p.fetch size).IsBlock size := by
  refine ⟨by rw [addr_fetch]; exact p.dvd_block size, ?_, ?_⟩ <;> unfold fetch <;> split
  · rename_i h
    exact h.2
  · rfl
  · exact h.carries
  · exact fun hw => by cases hw

theorem IsAccess.needsResponse_fetch (h : p.IsAccess size) : (p.fetch size).command.needsResponse := by
  unfold fetch
  split
  · exact h.needsResponse
  · rfl

/-- The answer to an access once its block came, and the bytes shown are `m`: the
fill itself, or that of the packet that was kept. -/
def completion (p : Packet) (size : Nat) (m : FlatMemory) (fill : Packet) : Packet :=
  match p.kept size with
  | none => fill
  | some p => m.answer p

/-- The bytes shown after an access, once its block came. -/
def outcome (p : Packet) (size : Nat) (m : FlatMemory) : FlatMemory :=
  match p.kept size with
  | none => m
  | some p => m.perform p

theorem kept_eq_some {q : Packet} (h : p.kept size = some q) : q = p := by
  unfold kept at h
  split at h
  · cases h
  · exact (Option.some.inj h).symm

/-- A packet that is not kept is its own fetch. -/
theorem fetch_of_kept_none (h : p.kept size = none) : p.fetch size = p := by
  unfold kept at h
  split at h
  · exact if_pos ‹_›
  · cases h

/-- The fetch for a packet that is kept is that of the whole block. -/
theorem fetch_of_kept {q : Packet} (h : p.kept size = some q) : q = p ∧ p.fetch size = p.blockRead size := by
  refine ⟨kept_eq_some h, ?_⟩
  unfold kept at h
  split at h
  · cases h
  · exact if_neg ‹_›

/-- A fetch shows the block after it, and what is done then completes the access. -/
theorem completion_fetch (p : Packet) (size : Nat) (m : FlatMemory) :
    p.completion size (m.perform (p.fetch size)) (m.answer (p.fetch size)) = m.answer p ∧
      p.outcome size (m.perform (p.fetch size)) = m.perform p := by
  unfold completion outcome kept fetch
  by_cases h : p.addr = p.block size ∧ p.size = size
  · simp only [if_pos h]
    exact ⟨trivial, trivial⟩
  · simp only [if_neg h, m.perform_of_read (p := p.blockRead size) rfl]
    exact ⟨trivial, trivial⟩

/-- The answer to a fetch of the block at an address. -/
structure IsFill (p : Packet) (addr size : Nat) : Prop where
  addr_eq : p.addr = addr
  size_eq : p.size = size
  isResponse : p.command.isResponse
  payload : ∃ data, p.payload = some data ∧ data.length = size

/-- The memory answers a packet over a whole block with the block. -/
theorem IsBlock.isFill_answer (h : p.IsBlock size) (hr : p.command.needsResponse) (m : FlatMemory) :
    (m.answer p).IsFill p.addr size := by
  obtain ⟨c, hc⟩ := Option.isSome_iff_exists.mp hr
  refine ⟨rfl, h.size_eq, ?_, ?_⟩
  · show (p.command.response?.getD p.command).isResponse
    rw [hc]
    exact (Command.of_response? hc).1
  · show ∃ data, (if p.command.isWrite then p.payload else some (m.read p.addr p.size)) = some data ∧ _
    split
    · rename_i hw
      obtain ⟨data, hd, hl⟩ := h.carries hw
      exact ⟨data, hd, hl.trans h.size_eq⟩
    · exact ⟨_, rfl, by rw [FlatMemory.length_read, h.size_eq]⟩

/-- The answer to a packet over a whole block shows the block as it is afterwards. -/
theorem IsBlock.payload_answer (h : p.IsBlock size) (m : FlatMemory) :
    (m.answer p).payload = some ((m.perform p).read p.addr size) := by
  by_cases hw : p.command.isWrite
  · obtain ⟨data, hd, hl⟩ := h.carries hw
    rw [FlatMemory.perform_of_write m hw hd, FlatMemory.answer, if_pos hw, hd, ← h.size_eq, ← hl,
      FlatMemory.read_write_self]
  · rw [FlatMemory.perform_of_read m (by simpa using hw), FlatMemory.answer, if_neg hw, h.size_eq]

theorem data?_eq_ok {data : Bytes} : p.data? = .ok data ↔ p.payload = some data := by
  unfold data?
  cases p.payload <;> simp

theorem respond?_of_needsResponse (h : p.command.needsResponse) :
    p.respond? = .ok { p with command := p.command.response?.getD p.command } := by
  obtain ⟨c, hc⟩ := Option.isSome_iff_exists.mp h
  simp [respond?, hc]

/-! ## Accesses to a block -/

/-- A packet and the data of its block, once it is performed against them. -/
def against (p : Packet) (data : Bytes) (size : Nat) : Except Fault (Packet × Bytes) :=
  if p.command.isWrite then do
    let data ← p.writeToBlock data size
    return (p, data)
  else do
    let p ← p.readFromBlock data size
    return (p, data)

/-- The packet after an access to a block: a read carries its bytes. -/
def loaded (p : Packet) (block : Bytes) (size : Nat) : Packet :=
  if p.command.isWrite then p else { p with payload := some (Block.slice block (p.offset size) p.size) }

/-- The block after an access: a write puts the payload in place. -/
def stored (p : Packet) (block : Bytes) (size : Nat) : Bytes :=
  if p.command.isWrite then Block.overlay block (p.offset size) (p.payload.getD []) else block

theorem length_stored (hf : p.Fits size) (hc : p.Carries) {block : Bytes} (hl : block.length = size) :
    (p.stored block size).length = size := by
  unfold stored
  split
  · rename_i hw
    obtain ⟨data, hdata, hsize⟩ := hc hw
    have hplace : p.offset size + p.size ≤ size := hf
    rw [hdata, Option.getD_some, Block.length_overlay (by omega), hl]
  · exact hl

/-- The answer to an access of a block is that of the memory which it is read from. -/
theorem respond?_loaded (hr : p.command.needsResponse) (hf : p.Fits size) (m : FlatMemory) :
    (p.loaded (m.read (p.block size) size) size).respond? = .ok (m.answer p) := by
  unfold loaded
  split
  · rename_i hw
    rw [respond?_of_needsResponse hr, FlatMemory.answer, if_pos hw]
  · rename_i hw
    rw [respond?_of_needsResponse (by exact hr), FlatMemory.answer, if_neg hw, FlatMemory.slice_read _ _ hf,
      ← p.addr_eq]

/-- To access a block and put it back is to access the memory. -/
theorem write_stored (hf : p.Fits size) (hc : p.Carries) (m : FlatMemory) :
    m.write (p.block size) (p.stored (m.read (p.block size) size) size) = m.perform p := by
  have haddr := p.addr_eq size
  have hplace : p.offset size + p.size ≤ size := hf
  unfold stored
  split
  · rename_i hw
    obtain ⟨data, hdata, hsize⟩ := hc hw
    rw [hdata, Option.getD_some, FlatMemory.perform_of_write _ hw hdata, FlatMemory.overlay_read _ _ (by omega),
      ← haddr]
    refine FlatMemory.write_read_of_eq fun a ha => ?_
    rcases ha with ha | ha
    · rw [FlatMemory.write_apply_of_lt _ _ (by omega)]
    · rw [FlatMemory.write_apply_of_le _ (by omega)]
  · rename_i hw
    rw [FlatMemory.perform_of_read _ (by simpa using hw), FlatMemory.write_read]

end Packet

end CacheSim
