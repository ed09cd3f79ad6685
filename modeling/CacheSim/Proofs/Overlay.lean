import CacheSim.Proofs.Packet
import CacheSim.Sim

/-!
# Payloads and blocks

What packets move between their payloads and the blocks they lie in, byte by byte.

* `Block.getElem?_overlay`, `Block.getElem?_slice`: a byte of a block that was written
  over, and a byte that was taken out of one;
* `Packet.checkBlock_eq_ok`: the checks before a move are what keeps it within the block;
* `Packet.Sized.handled`, `Packet.sized_build?`: a payload is as long as its packet, however
  the packet was made and handled;
* `Packet.moveLaws`: what is written is read again, and nothing else is touched.
-/

namespace CacheSim

namespace Block

variable {block xs ys : Bytes} {size offset place i : Nat}

/-- The bytes at a place, if the block reaches as far. -/
def slice? (block : Bytes) (offset size : Nat) : Option Bytes :=
  if offset + size ≤ block.length then some (slice block offset size) else none

/-- The block with the `size` bytes at a place replaced, if it reaches as far and there
are as many bytes to replace them. -/
def overlay? (block : Bytes) (offset size : Nat) (data : Bytes) : Option Bytes :=
  if offset + size ≤ block.length ∧ data.length = size then some (overlay block offset data) else none

theorem getElem?_slice (block : Bytes) (offset size i : Nat) :
    (slice block offset size)[i]? = if i < size then block[offset + i]? else none := by
  rw [slice, List.getElem?_take]
  split
  · rw [List.getElem?_drop]
  · rfl

theorem getElem?_overlay (h : offset + xs.length ≤ block.length) (i : Nat) :
    (overlay block offset xs)[i]? =
      if offset ≤ i ∧ i < offset + xs.length then xs[i - offset]? else block[i]? := by
  have hfront : (block.take offset).length = offset := by
    rw [List.length_take]
    omega
  rw [overlay, List.append_assoc]
  rcases Nat.lt_or_ge i offset with hlt | hge
  · rw [List.getElem?_append_left (by omega), List.getElem?_take_of_lt hlt, if_neg (by omega)]
  rw [List.getElem?_append_right (by omega), hfront]
  by_cases hin : i < offset + xs.length
  · rw [List.getElem?_append_left (by omega), if_pos ⟨hge, hin⟩]
  · rw [List.getElem?_append_right (by omega), List.getElem?_drop, if_neg (by omega)]
    congr 1
    omega

/-- Writes to places that do not meet can change their order. -/
theorem overlay_comm (hx : offset + xs.length ≤ block.length) (hy : place + ys.length ≤ block.length)
    (hapart : offset + xs.length ≤ place ∨ place + ys.length ≤ offset) :
    overlay (overlay block offset xs) place ys = overlay (overlay block place ys) offset xs := by
  refine List.ext_getElem? fun i => ?_
  rw [getElem?_overlay (by rwa [length_overlay hx]), getElem?_overlay hx,
    getElem?_overlay (by rwa [length_overlay hy]), getElem?_overlay hy]
  by_cases hin : offset ≤ i ∧ i < offset + xs.length
  · rw [if_pos hin, if_neg (by omega), if_pos hin]
  · rw [if_neg hin, if_neg hin]

/-- To put back what was taken out changes nothing. -/
theorem overlay_slice (h : offset + size ≤ block.length) : overlay block offset (slice block offset size) = block := by
  have hlength := length_slice h
  refine List.ext_getElem? fun i => ?_
  rw [getElem?_overlay (by omega), getElem?_slice, hlength]
  split
  · rw [if_pos (by omega)]
    congr 1
    omega
  · rfl

end Block

namespace Packet

variable {p q : Packet} {block data : Bytes} {size : Nat}

/-! ## Checks -/

/-- The first and the last byte of a packet lie in one block exactly if all its bytes do. -/
theorem fits_iff (hs : 0 < size) (h1 : 1 ≤ p.size) :
    p.Fits size ↔ Block.align size p.addr = Block.align size p.last := by
  have haddr := p.addr_eq size
  have hlast : Block.align size p.last = p.block size ↔ p.block size ≤ p.last ∧ p.last < p.block size + size :=
    Block.align_eq_iff hs (p.dvd_block size)
  have hends : p.last = p.addr + (p.size - 1) := rfl
  rw [show Block.align size p.addr = p.block size from rfl, eq_comm, hlast]
  show p.offset size + p.size ≤ size ↔ _
  omega

theorem checkBlock_eq_ok : p.checkBlock block size = .ok () ↔ 0 < size ∧ block.length = size ∧ p.Fits size := by
  unfold checkBlock
  by_cases hl : block.length = size
  · rcases Nat.eq_zero_or_pos size with rfl | hs
    · simp [fits?, Block.align?, hl]
    · by_cases hf : p.Fits size <;> simp [fits?_of_pos p hs, hl, hs, hf, pure, Except.pure, throw, throwThe, MonadExceptOf.throw]
  · simp [hl, throw, throwThe, MonadExceptOf.throw]

theorem writeToBlock_eq_ok {written : Bytes} : p.writeToBlock block size = .ok written ↔
    (0 < size ∧ block.length = size ∧ p.Fits size) ∧
      ∃ data, p.payload = some data ∧ written = Block.overlay block (p.offset size) data := by
  rw [← checkBlock_eq_ok, writeToBlock, Sim.bind_eq_ok]
  constructor
  · rintro ⟨u, hcheck, h⟩
    obtain ⟨data, hdata, h⟩ := Sim.bind_eq_ok.mp h
    exact ⟨hcheck, data, data?_eq_ok.mp hdata, (Except.ok.inj h).symm⟩
  · rintro ⟨hcheck, data, hdata, rfl⟩
    exact ⟨(), hcheck, Sim.bind_eq_ok.mpr ⟨data, data?_eq_ok.mpr hdata, rfl⟩⟩

theorem readFromBlock_eq_ok : p.readFromBlock block size = .ok q ↔
    (0 < size ∧ block.length = size ∧ p.Fits size) ∧
      q = { p with payload := some (Block.slice block (p.offset size) p.size) } := by
  rw [← checkBlock_eq_ok, readFromBlock, Sim.bind_eq_ok]
  constructor
  · rintro ⟨u, hcheck, h⟩
    exact ⟨hcheck, (Except.ok.inj h).symm⟩
  · rintro ⟨hcheck, rfl⟩
    exact ⟨(), hcheck, rfl⟩

/-! ## The length of a payload -/

/-- The payload, if there is one, is as long as the packet. -/
def Sized (p : Packet) : Prop :=
  ∀ data, p.payload = some data → data.length = p.size

/-- What can be done to a packet that is not sent. -/
inductive Handling where
  | allocate
  | setData (data : Bytes)
  | respond
  | readFromBlock (block : Bytes) (blockSize : Nat)

/-- Does one thing to a packet. -/
def handle (p : Packet) : Handling → Except Fault Packet
  | .allocate => .ok p.allocate
  | .setData data => p.setData? data
  | .respond => p.respond?
  | .readFromBlock block blockSize => p.readFromBlock block blockSize

/-- Does things to a packet one after another. -/
def handleAll (p : Packet) (handlings : List Handling) : Except Fault Packet :=
  handlings.foldlM handle p

/-- A packet keeps its length and its payload, which stays as long as the packet. -/
structure Handled (p q : Packet) : Prop where
  size : q.size = p.size
  filled : p.payload.isSome → q.payload.isSome
  sized : p.Sized → q.Sized

theorem handled_of_allocate (p : Packet) : p.Handled p.allocate := by
  refine ⟨rfl, fun _ => rfl, fun hp data hdata => ?_⟩
  obtain rfl := Option.some.inj hdata
  show (p.payload.getD (Block.zeros p.size)).length = p.size
  cases hpayload : p.payload with
  | none => exact Block.length_zeros p.size
  | some room => exact hp room hpayload

theorem handled_of_setData? (h : p.setData? data = .ok q) : p.Handled q := by
  unfold setData? at h
  split at h
  · rename_i hlength
    obtain rfl := Except.ok.inj h
    refine ⟨rfl, fun _ => rfl, fun _ bytes hbytes => ?_⟩
    obtain rfl := Option.some.inj hbytes
    exact hlength
  · cases h

theorem handled_of_respond? (h : p.respond? = .ok q) : p.Handled q := by
  unfold respond? at h
  split at h
  · obtain rfl := Except.ok.inj h
    exact ⟨rfl, id, id⟩
  · cases h

theorem handled_of_readFromBlock (h : p.readFromBlock block size = .ok q) : p.Handled q := by
  obtain ⟨⟨-, hlength, hfits⟩, rfl⟩ := readFromBlock_eq_ok.mp h
  refine ⟨rfl, fun _ => rfl, fun _ bytes hbytes => ?_⟩
  obtain rfl := Option.some.inj hbytes
  exact Block.length_slice (hlength ▸ hfits)

theorem handled_of_handle {handling : Handling} (h : p.handle handling = .ok q) : p.Handled q := by
  cases handling with
  | allocate =>
    obtain rfl := Except.ok.inj h
    exact p.handled_of_allocate
  | setData data => exact handled_of_setData? h
  | respond => exact handled_of_respond? h
  | readFromBlock block blockSize => exact handled_of_readFromBlock h

theorem handled_of_handleAll {handlings : List Handling} (h : p.handleAll handlings = .ok q) : p.Handled q := by
  induction handlings generalizing p with
  | nil =>
    obtain rfl := Except.ok.inj h
    exact ⟨rfl, id, id⟩
  | cons handling rest ih =>
    rw [handleAll, List.foldlM_cons] at h
    obtain ⟨r, hr, hrest⟩ := Sim.bind_eq_ok.mp h
    have hstep := handled_of_handle hr
    have hlater := ih hrest
    exact ⟨hlater.size.trans hstep.size, hlater.filled ∘ hstep.filled, hlater.sized ∘ hstep.sized⟩

/-- A packet that was built has a payload of its length. -/
theorem sized_build? {command : Command} {addr count context : Nat} {given : Option Bytes}
    (h : build? command addr count context given = .ok p) : p.Sized ∧ p.payload.isSome ∧ p.size = count := by
  have hbare : (bare command addr count context).Sized := fun _ hnone => nomatch hnone
  cases given with
  | none =>
    obtain rfl := Except.ok.inj h
    exact ⟨(handled_of_allocate _).sized hbare, rfl, rfl⟩
  | some data =>
    have hset := handled_of_setData? h
    refine ⟨hset.sized hbare, ?_, hset.size⟩
    change setData? _ data = .ok p at h
    unfold setData? at h
    split at h
    · obtain rfl := Except.ok.inj h
      rfl
    · cases h

/-! ## Moves -/

/-- What packets move to and from blocks of a size. -/
structure MoveLaws (size : Nat) : Prop where
  /-- The first and the last byte of a packet tell whether all lie in one block. -/
  fits : ∀ {p : Packet}, 1 ≤ p.size → (p.fits? size = .ok true ↔ Block.align? size p.addr = Block.align? size p.last)
  /-- A write replaces the bytes of its range, which are in the block, and no others. -/
  write : ∀ {p : Packet} {block data : Bytes}, p.Fits size → p.Sized → p.payload = some data → block.length = size →
    ∃ written, p.writeToBlock block size = .ok written ∧
      Block.overlay? block (p.offset size) p.size data = some written ∧ written.length = size ∧
      ∀ i : Nat, written[i]? =
        if p.offset size ≤ i ∧ i < p.offset size + p.size then data[i - p.offset size]? else block[i]?
  /-- A read takes the bytes of its range, which are in the block, into as much room. -/
  read : ∀ {p : Packet} {block : Bytes}, p.Fits size → p.Sized → block.length = size →
    ∃ bytes room, p.readFromBlock block size = .ok { p with payload := some bytes } ∧
      Block.slice? block (p.offset size) p.size = some bytes ∧ bytes.length = p.size ∧
      p.allocate.payload = some room ∧ room.length = bytes.length ∧
      ∀ i < p.size, bytes[i]? = block[p.offset size + i]?
  /-- A read in a block that was written to sees the payload of the write where their
  ranges meet, and the block as it was before elsewhere. -/
  readBack : ∀ {p q : Packet} {block data written : Bytes}, p.Sized → p.payload = some data →
    p.writeToBlock block size = .ok written → q.Fits size → q.block size = p.block size →
    ∃ bytes, q.readFromBlock written size = .ok { q with payload := some bytes } ∧ bytes.length = q.size ∧
      ∀ i < q.size, bytes[i]? =
        if p.addr ≤ q.addr + i ∧ q.addr + i < p.addr + p.size then data[q.addr + i - p.addr]?
        else block[q.offset size + i]?
  /-- The order of writes whose ranges do not meet does not matter. -/
  comm : ∀ {p q : Packet} {block : Bytes}, p.Fits size → q.Fits size → p.Sized → q.Sized → p.payload.isSome →
    q.payload.isSome → block.length = size →
    p.offset size + p.size ≤ q.offset size ∨ q.offset size + q.size ≤ p.offset size →
    ∃ written, (p.writeToBlock block size >>= (q.writeToBlock · size)) = .ok written ∧
      (q.writeToBlock block size >>= (p.writeToBlock · size)) = .ok written
  /-- A read leaves the block as it is, so that to write what was read changes nothing. -/
  restore : ∀ {p : Packet} {block : Bytes}, p.Fits size → block.length = size →
    (p.readFromBlock block size >>= (·.writeToBlock block size)) = .ok block
  /-- However a packet was built and handled, it has a payload of its length. -/
  sized : ∀ {command addr count context given handlings} {p : Packet},
    (build? command addr count context given >>= (·.handleAll handlings)) = .ok p →
      ∃ data, p.payload = some data ∧ data.length = p.size ∧ p.size = count

theorem exists_writeToBlock (hs : 0 < size) (hf : p.Fits size) (hp : p.Sized) (hd : p.payload = some data)
    (hb : block.length = size) :
    ∃ written, p.writeToBlock block size = .ok written ∧
      Block.overlay? block (p.offset size) p.size data = some written ∧ written.length = size ∧
      ∀ i : Nat, written[i]? =
        if p.offset size ≤ i ∧ i < p.offset size + p.size then data[i - p.offset size]? else block[i]? := by
  have hlength := hp data hd
  have hplace : p.offset size + data.length ≤ block.length := by rw [hlength, hb]; exact hf
  refine ⟨_, writeToBlock_eq_ok.mpr ⟨⟨hs, hb, hf⟩, data, hd, rfl⟩, if_pos ⟨hlength ▸ hplace, hlength⟩, ?_, fun i => ?_⟩
  · rw [Block.length_overlay hplace, hb]
  · rw [Block.getElem?_overlay hplace, hlength]

theorem exists_readFromBlock (hs : 0 < size) (hf : p.Fits size) (hb : block.length = size) :
    ∃ bytes, p.readFromBlock block size = .ok { p with payload := some bytes } ∧
      Block.slice? block (p.offset size) p.size = some bytes ∧ bytes.length = p.size ∧
      ∀ i < p.size, bytes[i]? = block[p.offset size + i]? := by
  have hplace : p.offset size + p.size ≤ block.length := hb ▸ hf
  refine ⟨_, readFromBlock_eq_ok.mpr ⟨⟨hs, hb, hf⟩, rfl⟩, if_pos hplace, Block.length_slice hplace, fun i hi => ?_⟩
  rw [Block.getElem?_slice, if_pos hi]

/-- Packets move bytes within their block: a write puts its payload in place and touches
nothing else, and a read takes what is there.  This needs no power of two as block size, and
no address is too great for it. -/
theorem moveLaws (hs : 0 < size) : MoveLaws size where
  fits {p} h1 := by
    rw [fits?_of_pos p hs, Block.align?_of_pos hs, Block.align?_of_pos hs, Except.ok.injEq, Except.ok.injEq,
      decide_eq_true_iff]
    exact fits_iff hs h1
  write hf hp hd hb := exists_writeToBlock hs hf hp hd hb
  read {p block} hf hp hb := by
    obtain ⟨bytes, hread, hslice, hlength, hbytes⟩ := exists_readFromBlock hs hf hb
    have hroom := (handled_of_allocate p).sized hp _ rfl
    exact ⟨bytes, _, hread, hslice, hlength, rfl, hroom.trans hlength.symm, hbytes⟩
  readBack {p q block data written} hp hd hwrite hf hblock := by
    obtain ⟨⟨-, hb, hpf⟩, -⟩ := writeToBlock_eq_ok.mp hwrite
    obtain ⟨written', hwrite', -, hlength, hwritten⟩ := exists_writeToBlock hs hpf hp hd hb
    obtain rfl := Except.ok.inj (hwrite.symm.trans hwrite')
    obtain ⟨bytes, hread, -, hbytes, hget⟩ := exists_readFromBlock hs hf hlength
    refine ⟨bytes, hread, hbytes, fun i hi => ?_⟩
    -- an address and its place in the block differ by the start of the block
    have hpaddr := p.addr_eq size
    have hqaddr := q.addr_eq size
    rw [hblock] at hqaddr
    rw [hget i hi, hwritten]
    have hmeet : p.offset size ≤ q.offset size + i ∧ q.offset size + i < p.offset size + p.size ↔
        p.addr ≤ q.addr + i ∧ q.addr + i < p.addr + p.size := by omega
    have hindex : q.offset size + i - p.offset size = q.addr + i - p.addr := by omega
    simp only [hmeet, hindex]
  comm {p q block} hpf hqf hp hq hpd hqd hb hapart := by
    obtain ⟨xs, hx⟩ := Option.isSome_iff_exists.mp hpd
    obtain ⟨ys, hy⟩ := Option.isSome_iff_exists.mp hqd
    have hplace : p.offset size + xs.length ≤ block.length := by rw [hp xs hx, hb]; exact hpf
    have hplace' : q.offset size + ys.length ≤ block.length := by rw [hq ys hy, hb]; exact hqf
    have hwritten := Block.length_overlay hplace
    have hwritten' := Block.length_overlay hplace'
    rw [hb] at hwritten hwritten'
    refine ⟨Block.overlay (Block.overlay block (p.offset size) xs) (q.offset size) ys, Sim.bind_eq_ok.mpr ?_,
      Sim.bind_eq_ok.mpr ?_⟩
    · exact ⟨_, writeToBlock_eq_ok.mpr ⟨⟨hs, hb, hpf⟩, xs, hx, rfl⟩,
        writeToBlock_eq_ok.mpr ⟨⟨hs, hwritten, hqf⟩, ys, hy, rfl⟩⟩
    · refine ⟨_, writeToBlock_eq_ok.mpr ⟨⟨hs, hb, hqf⟩, ys, hy, rfl⟩,
        writeToBlock_eq_ok.mpr ⟨⟨hs, hwritten', hpf⟩, xs, hx, ?_⟩⟩
      refine Block.overlay_comm hplace hplace' ?_
      rwa [hp xs hx, hq ys hy]
  restore {p block} hf hb := by
    refine Sim.bind_eq_ok.mpr ⟨_, readFromBlock_eq_ok.mpr ⟨⟨hs, hb, hf⟩, rfl⟩, ?_⟩
    refine writeToBlock_eq_ok.mpr ⟨⟨hs, hb, hf⟩, _, rfl, (Block.overlay_slice ?_).symm⟩
    exact hb ▸ hf
  sized {command addr count context given handlings p} h := by
    obtain ⟨made, hmade, hall⟩ := Sim.bind_eq_ok.mp h
    obtain ⟨hsized, hfilled, hcount⟩ := sized_build? hmade
    have hhandled := handled_of_handleAll hall
    obtain ⟨data, hdata⟩ := Option.isSome_iff_exists.mp (hhandled.filled hfilled)
    exact ⟨data, hdata, hhandled.sized hsized data hdata, hhandled.size.trans hcount⟩

/-- The laws at blocks of 48 bytes: a write up to the last address, and a read of the two bytes
before it and of its first two. -/
theorem moveLaws_of_last_address :
    0 < 48 ∧ ∃ written bytes, (write (Word.bound - 4) [1, 2, 3, 4] 0).writeToBlock (Block.zeros 48) 48 = .ok written ∧
      (read (Word.bound - 6) 4 0).readFromBlock written 48 =
        .ok { read (Word.bound - 6) 4 0 with payload := some bytes } ∧
      bytes[1]? = some 0 ∧ bytes[2]? = some 1 := by
  have laws : MoveLaws 48 := moveLaws (by decide)
  have hsized : (write (Word.bound - 4) [1, 2, 3, 4] 0).Sized := fun _ hdata => Option.some.inj hdata ▸ rfl
  obtain ⟨written, hwrite, -⟩ := laws.write (by decide) hsized rfl (Block.length_zeros 48)
  obtain ⟨bytes, hread, -, hbytes⟩ :=
    laws.readBack (q := read (Word.bound - 6) 4 0) hsized rfl hwrite (by decide) (by decide)
  exact ⟨by decide, written, bytes, hwrite, hread, hbytes 1 (by decide), hbytes 2 (by decide)⟩

end Packet

end CacheSim
