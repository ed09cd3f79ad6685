import CacheSim.Proofs.Memory.Blocks
import CacheSim.Proofs.Store.DirectMapped
import CacheSim.Proofs.Store.FullyAssociative
import CacheSim.Proofs.Store.SetAssociative
import CacheSim.Store.Basic

/-!
# Stores over a memory

What the operations of a store do to its directory, whatever its organisation,
and what this means for the bytes that the store shows over a memory.

* `insert_eq_ok`: a block that is not resident can be inserted;
* `access_of_resident`: an access to a resident block answers what the bytes of
  the store and the memory under it say, and performs the access on them;
* `overlay_inserted`: after the victim is written back, an insertion writes the
  new block.
-/

namespace CacheSim.Store

open Directory

variable {s t : Store} {addr n : Nat}

/-- The lines are where they are looked up, and hold whole blocks. -/
def Valid (s : Store) : Prop :=
  match s.organization with
  | .direct d => d.Valid
  | .full f => f.Valid
  | .sets a => a.Valid

/-- The logical time, which counts insertions and touches. -/
def time (s : Store) : Nat :=
  match s.organization with
  | .direct d => d.time
  | .full f => f.time
  | .sets a => a.time

/-- The store `t` is a state of the store `s` that is `n` later in logical time. -/
structure Follows (s t : Store) (n : Nat) : Prop where
  valid : t.Valid
  lineSize : t.lineSize = s.lineSize
  capacity : t.capacity = s.capacity
  time : t.time = s.time + n

theorem Follows.trans {u : Store} {k : Nat} (h : s.Follows t n) (h' : t.Follows u k) :
    s.Follows u (n + k) :=
  ⟨h'.valid, h'.lineSize.trans h.lineSize, h'.capacity.trans h.capacity, by rw [h'.time, h.time]; omega⟩

theorem Valid.sound (h : s.Valid) : Sound s.lookup s.lineSize := by
  obtain ⟨d | f | a, g⟩ := s
  · exact DirectMapped.Valid.sound h
  · exact FullyAssociative.Valid.lines h |>.sound
  · exact SetAssociative.Valid.sound h

theorem valid_ofGeometry? {g : Geometry} {gen : Generator} (h : ofGeometry? g gen = .ok s) :
    s.Valid ∧ s.lineSize = g.lineSize ∧ (∀ a, s.lookup a = none) ∧ s.time = 0 := by
  unfold ofGeometry? at h
  split at h
  · cases hd : DirectMapped.ofSizes? g.lines g.lineSize with
    | error e => simp [hd] at h
    | ok d =>
      obtain rfl : _ = s := by simpa [hd] using h
      exact DirectMapped.valid_ofSizes? hd
  · cases hf : FullyAssociative.ofSizes? g.lines g.lineSize g.policy with
    | error e => simp [hf] at h
    | ok f =>
      obtain rfl : _ = s := by simpa [hf] using h
      exact FullyAssociative.valid_ofSizes? hf
  · cases ha : SetAssociative.ofSizes? g.lines g.ways g.lineSize g.policy with
    | error e => simp [ha] at h
    | ok a =>
      obtain rfl : _ = s := by simpa [ha] using h
      exact SetAssociative.valid_ofSizes? ha

/-- There are never more lines than there is room for. -/
theorem Valid.size_le_capacity (h : s.Valid) : s.size ≤ s.capacity := by
  obtain ⟨d | f | a, g⟩ := s
  · exact DirectMapped.length_lines_le d
  · exact FullyAssociative.Valid.room h
  · exact SetAssociative.Valid.length_lines_le h

/-! ## Operations on the directory -/

theorem updated_update {f : Line → Line} (hf : ∀ l, (f l).tag = l.tag) (addr : Nat) :
    Updated s.lookup (s.update addr f).lookup addr f := by
  obtain ⟨d | a | a, g⟩ := s
  · exact DirectMapped.updated_update hf addr
  · exact FullyAssociative.updated_update hf addr
  · exact SetAssociative.updated_update hf addr

theorem Valid.follows_update {f : Line → Line} (h : s.Valid) (hf : ∀ l, (f l).tag = l.tag)
    (hl : ∀ l, s.lookup addr = some l → (f l).data.length = s.lineSize) :
    s.Follows (s.update addr f) 0 := by
  obtain ⟨d | a | a, g⟩ := s
  · refine ⟨DirectMapped.Valid.update h hf hl, ?_, ?_, DirectMapped.time_update d addr f⟩
    · exact congrArg Mapping.lineSize (DirectMapped.mapping_update d addr f)
    · exact congrArg Mapping.sets (DirectMapped.mapping_update d addr f)
  · exact ⟨FullyAssociative.Valid.update h hf hl, rfl, rfl, rfl⟩
  · exact ⟨SetAssociative.Valid.update h hf hl, rfl, rfl, rfl⟩

theorem updated_touch (s : Store) (addr : Nat) :
    Updated s.lookup (s.touch addr).lookup addr (·.touched (s.time + 1)) := by
  have hf : ∀ l : Line, (l.touched (s.time + 1)).tag = l.tag := fun _ => rfl
  obtain ⟨d | a | a, g⟩ := s
  · exact DirectMapped.updated_update (s := { d with time := d.time + 1 }) hf addr
  · exact FullyAssociative.updated_update (s := { a with time := a.time + 1 }) hf addr
  · exact SetAssociative.updated_update (s := { a with time := a.time + 1 }) hf addr

theorem Valid.follows_touch (h : s.Valid) (addr : Nat) : s.Follows (s.touch addr) 1 := by
  have hl : ∀ l, s.lookup addr = some l → (l.touched (s.time + 1)).data.length = s.lineSize :=
    fun _ => h.sound.length
  obtain ⟨d | a | a, g⟩ := s
  · have hd := DirectMapped.Valid.withTime h (d.time + 1)
    refine ⟨hd.update (fun _ => rfl) hl, ?_, ?_, DirectMapped.time_update _ addr _⟩
    · exact congrArg Mapping.lineSize (DirectMapped.mapping_update _ addr _)
    · exact congrArg Mapping.sets (DirectMapped.mapping_update _ addr _)
  · have ha := FullyAssociative.Valid.withTime h (a.time + 1)
    exact ⟨ha.update (fun _ => rfl) hl, rfl, rfl, rfl⟩
  · have ha := SetAssociative.Valid.withTime h (a.time + 1)
    exact ⟨ha.update (fun _ => rfl) hl, rfl, rfl, rfl⟩

/-- A block that is not resident can be inserted. -/
theorem Valid.insert_eq_ok {data : Bytes} (h : s.Valid) (hn : s.lookup addr = none)
    (hd : s.lineSize ∣ addr) (hl : data.length = s.lineSize) :
    ∃ victim t, (s.insert addr data).result = .ok (victim, t) ∧ s.Follows t 1 ∧
      Inserted s.lookup t.lookup addr (.fresh addr data (s.time + 1)) victim := by
  obtain ⟨d | a | a, g⟩ := s
  · refine ⟨d.slotOf addr, ⟨.direct (d.placed (.fresh addr data (d.time + 1)) (d.time + 1)), g⟩, ?_, ?_, ?_⟩
    · simp [insert, DirectMapped.insert_eq_ok (s := d) hn hd]
    · exact ⟨DirectMapped.Valid.placed h hd hl _, rfl, rfl, rfl⟩
    · exact DirectMapped.inserted_insert h hn _
  · obtain ⟨victim, rest, g', hr, hperm, hroom⟩ := FullyAssociative.insert_eq_ok h hn g data
    refine ⟨victim, ⟨.full _, g'⟩, by simp [insert, hr]; rfl, ?_, ?_⟩
    · exact ⟨FullyAssociative.Valid.added (l := .fresh addr data _) h hn hd hl hperm hroom _, rfl, rfl, rfl⟩
    · exact FullyAssociative.inserted_added (l := .fresh addr data _) h hn hd hl hperm _
  · obtain ⟨i, g', hr, hi⟩ := SetAssociative.insert_eq_ok h hn g data
    refine ⟨(a.setOf addr).getD i none, ⟨.sets _, g'⟩, by simp [insert, hr]; rfl, ?_, ?_⟩
    · exact ⟨SetAssociative.Valid.placed (l := .fresh addr data _) h hn hd hl hi _, rfl, rfl, rfl⟩
    · exact SetAssociative.inserted_placed (l := .fresh addr data _) h hn hd hl hi _

theorem Valid.of_insert {data : Bytes} {victim : Option Line} (h : s.Valid) (hn : s.lookup addr = none)
    (hd : s.lineSize ∣ addr) (hl : data.length = s.lineSize)
    (hr : (s.insert addr data).result = .ok (victim, t)) :
    s.Follows t 1 ∧ Inserted s.lookup t.lookup addr (.fresh addr data (s.time + 1)) victim := by
  obtain ⟨v, u, hu, hf, hi⟩ := h.insert_eq_ok hn hd hl
  obtain ⟨rfl, rfl⟩ := Prod.mk.inj (Except.ok.inj (hu.symm.trans hr))
  exact ⟨hf, hi⟩

/-! ## The bytes that a store shows -/

/-- The bytes of a memory, those of the resident blocks replaced by their lines. -/
def overlay (s : Store) (m : FlatMemory) : FlatMemory := fun a =>
  match s.lookup (Block.align s.lineSize a) with
  | some l => l.data.getD (Block.offset s.lineSize a) (m a)
  | none => m a

variable {m : FlatMemory}

theorem overlay_apply_of_none {a : Nat} (h : s.lookup (Block.align s.lineSize a) = none) (m : FlatMemory) :
    s.overlay m a = m a := by
  simp only [overlay, h]

theorem overlay_apply_congr {m' : FlatMemory} {a : Nat} (h : m' a = m a) : s.overlay m' a = s.overlay m a := by
  simp only [overlay, h]

theorem Valid.overlay_apply_of_some (h : s.Valid) (hs : 0 < s.lineSize) {a : Nat} {l : Line}
    (hl : s.lookup (Block.align s.lineSize a) = some l) (m : FlatMemory) (d : UInt8) :
    s.overlay m a = l.data.getD (Block.offset s.lineSize a) d := by
  have hlt : Block.offset s.lineSize a < l.data.length := by
    rw [h.sound.length hl]
    exact Block.offset_lt hs a
  simp only [overlay, hl, List.getD_eq_getElem?_getD, List.getElem?_eq_getElem hlt, Option.getD_some]

theorem overlay_of_empty (h : ∀ a, s.lookup a = none) (m : FlatMemory) : s.overlay m = m :=
  funext fun _ => overlay_apply_of_none (h _) m

/-- Stores with the same lines show the same bytes. -/
theorem overlay_congr (hs : t.lineSize = s.lineSize)
    (h : ∀ b, (t.lookup b).map (·.data) = (s.lookup b).map (·.data)) (m : FlatMemory) :
    t.overlay m = s.overlay m := by
  funext a
  have hb := h (Block.align s.lineSize a)
  rw [overlay, overlay, hs]
  cases ht : t.lookup (Block.align s.lineSize a) <;> cases hl : s.lookup (Block.align s.lineSize a) <;>
    simp_all

theorem overlay_touch (h : s.Valid) (addr : Nat) (m : FlatMemory) : (s.touch addr).overlay m = s.overlay m := by
  refine overlay_congr (h.follows_touch addr).lineSize (fun b => ?_) m
  rw [updated_touch s addr b]
  split
  · cases s.lookup b <;> rfl
  · rfl

/-- The bytes of a resident block are those of its line. -/
theorem Valid.read_overlay (h : s.Valid) (hs : 0 < s.lineSize) {l : Line} (hl : s.lookup addr = some l)
    (m : FlatMemory) : (s.overlay m).read addr s.lineSize = l.data := by
  apply List.ext_getElem
  · rw [FlatMemory.length_read, h.sound.length hl]
  · intro i h₁ h₂
    rw [FlatMemory.length_read] at h₁
    have ha : Block.align s.lineSize (addr + i) = addr :=
      (Block.align_eq_iff hs (h.sound.dvd hl)).mpr (by omega)
    have ho : Block.offset s.lineSize (addr + i) = i := by
      rw [Block.offset_eq_sub ha]; omega
    simp only [FlatMemory.read, List.getElem_map, List.getElem_range]
    rw [h.overlay_apply_of_some hs (ha ▸ hl) m 0, ho, List.getD_eq_getElem?_getD,
      List.getElem?_eq_getElem h₂]
    rfl

/-- Other data in the line of a block is a write of the whole block. -/
theorem Valid.overlay_holding (h : s.Valid) (hs : 0 < s.lineSize) {l : Line} (hl : s.lookup addr = some l)
    {data : Bytes} (hlen : data.length = s.lineSize) (m : FlatMemory) :
    (s.update addr (·.holding data)).overlay m = (s.overlay m).write addr data := by
  have hu := updated_update (s := s) (f := (·.holding data)) (fun _ => rfl) addr
  have hf : s.Follows (s.update addr (·.holding data)) 0 := h.follows_update (fun _ => rfl) fun _ _ => hlen
  funext a
  rw [FlatMemory.write_block_apply _ hs (h.sound.dvd hl) hlen a 0]
  by_cases ha : Block.align s.lineSize a = addr
  · have hl' : (s.update addr (·.holding data)).lookup (Block.align s.lineSize a) = some (l.holding data) := by
      rw [ha, hu.apply_self, hl]; rfl
    rw [if_pos ha, hf.valid.overlay_apply_of_some (hf.lineSize ▸ hs) (hf.lineSize.symm ▸ hl') m 0,
      hf.lineSize, Line.data_holding]
  · rw [if_neg ha, overlay, overlay, hf.lineSize, hu.apply_of_ne ha]

/-- What is done to a block that is not resident is done to the memory. -/
theorem overlay_perform_of_absent {p : Packet} (hs : 0 < s.lineSize) (hp : p.InBlock s.lineSize)
    (hn : s.lookup (p.block s.lineSize) = none) (m : FlatMemory) :
    s.overlay (m.perform p) = (s.overlay m).perform p := by
  funext a
  by_cases ha : Block.align s.lineSize a = p.block s.lineSize
  · rw [overlay_apply_of_none (ha ▸ hn)]
    exact FlatMemory.perform_apply_congr (overlay_apply_of_none (ha ▸ hn) m).symm p
  · rw [FlatMemory.perform_apply_of_ne hs hp ha, overlay, overlay, FlatMemory.perform_apply_of_ne hs hp ha]

theorem answer_overlay_of_absent {p : Packet} (hs : 0 < s.lineSize) (hp : p.InBlock s.lineSize)
    (hn : s.lookup (p.block s.lineSize) = none) (m : FlatMemory) : (s.overlay m).answer p = m.answer p :=
  FlatMemory.answer_congr hs hp.fits fun _ ha => overlay_apply_of_none (ha ▸ hn) m

theorem overlay_after_of_absent {ps : List Packet} (hs : 0 < s.lineSize)
    (h : ∀ p ∈ ps, p.InBlock s.lineSize ∧ s.lookup (p.block s.lineSize) = none) (m : FlatMemory) :
    s.overlay (m.after ps) = (s.overlay m).after ps := by
  induction ps generalizing m with
  | nil => rfl
  | cons p ps ih =>
    obtain ⟨hp, hn⟩ := h p (List.mem_cons_self ..)
    rw [FlatMemory.after_cons, ih fun q hq => h q (List.mem_cons_of_mem p hq),
      overlay_perform_of_absent hs hp hn, FlatMemory.after_cons]

theorem answers_overlay_of_absent {ps : List Packet} (hs : 0 < s.lineSize)
    (h : ∀ p ∈ ps, p.InBlock s.lineSize ∧ s.lookup (p.block s.lineSize) = none) (m : FlatMemory) :
    (s.overlay m).answers ps = m.answers ps := by
  induction ps generalizing m with
  | nil => rfl
  | cons p ps ih =>
    obtain ⟨hp, hn⟩ := h p (List.mem_cons_self ..)
    rw [FlatMemory.answers, FlatMemory.answers, answer_overlay_of_absent hs hp hn,
      ← overlay_perform_of_absent hs hp hn, ih fun q hq => h q (List.mem_cons_of_mem p hq)]

/-- The packets that write a victim back. -/
def writebacks (victim : Option Line) : List Packet :=
  victim.toList.map fun v => .writeback v.tag v.data

theorem Valid.isBlock_writebacks (h : s.Valid) {d : Directory} {line : Line} {victim : Option Line}
    (hi : Inserted s.lookup d addr line victim) : ∀ w ∈ writebacks victim, w.IsBlock s.lineSize := by
  intro w hw
  obtain ⟨v, hv, rfl⟩ := List.mem_map.mp hw
  have hres := hi.resident v (Option.mem_toList.mp hv)
  exact Packet.isBlock_writeback (h.sound.dvd hres) (h.sound.length hres)

/-- Once the victim is written back, an insertion is a write of the whole block. -/
theorem Valid.overlay_inserted (h : s.Valid) (hs : 0 < s.lineSize) (hf : s.Follows t n) {line : Line}
    {victim : Option Line} (hi : Inserted s.lookup t.lookup addr line victim)
    (hd : s.lineSize ∣ addr) (hl : line.data.length = s.lineSize) (m : FlatMemory) :
    t.overlay (m.after (writebacks victim)) = (s.overlay m).write addr line.data := by
  funext a
  rw [FlatMemory.write_block_apply _ hs hd hl a 0]
  by_cases ha : Block.align s.lineSize a = addr
  · rw [if_pos ha, hf.valid.overlay_apply_of_some (hf.lineSize ▸ hs) (by rw [hf.lineSize, ha, hi.fresh]) _ 0,
      hf.lineSize]
  rw [if_neg ha]
  cases victim with
  | none =>
    rw [overlay, overlay, hf.lineSize, hi.others _ ha (by simp)]
    rfl
  | some v =>
    have hres : s.lookup v.tag = some v := hi.resident v rfl
    have hm : ∀ d, (m.after (writebacks (some v))) a =
        if Block.align s.lineSize a = v.tag then v.data.getD (Block.offset s.lineSize a) d else m a :=
      fun d => FlatMemory.write_block_apply m hs (h.sound.dvd hres) (h.sound.length hres) a d
    by_cases hv : Block.align s.lineSize a = v.tag
    · have hgone : t.lookup (Block.align t.lineSize a) = none := by
        rw [hf.lineSize, hv]
        exact hi.evicted v rfl
      rw [overlay_apply_of_none hgone, hm 0, if_pos hv, h.overlay_apply_of_some hs (hv ▸ hres) m 0]
    · have hother : ∀ w ∈ some v, Block.align s.lineSize a ≠ w.tag := by
        rintro w ⟨⟩
        exact hv
      rw [overlay, overlay, hf.lineSize, hi.others _ ha hother, hm 0, if_neg hv]

/-! ## Accesses -/

/-- A packet that is no write reads, so that only the kind of an access makes a
difference. -/
theorem access_eq (s : Store) (p : Packet) :
    (s.access p).result = Block.align? s.lineSize p.addr >>= fun block =>
      match s.lookup block with
      | none => .ok none
      | some l => p.against l.data s.lineSize >>= fun x => .ok (some (x.1, s.update block (·.holding x.2))) := by
  simp only [access, Sim.result_bind, Sim.result_liftM]
  congr 1
  funext block
  cases s.lookup block with
  | none => rfl
  | some l =>
    by_cases hw : p.command.isWrite
    · simp [Packet.against, hw]
    · simp [Packet.against, hw, Command.isRead_of_not_isWrite hw]

theorem access_of_not_resident {p : Packet} (hs : 0 < s.lineSize)
    (hn : s.lookup (p.block s.lineSize) = none) : (s.access p).result = .ok none := by
  have hb : Block.align? s.lineSize p.addr = .ok (p.block s.lineSize) := Block.align?_of_pos hs p.addr
  simp [access_eq, hb, hn]

/-- An access to a resident block reads or writes its line. -/
theorem Valid.access_of_lookup {p : Packet} (h : s.Valid) (hs : 0 < s.lineSize) (hf : p.Fits s.lineSize)
    (hc : p.Carries) {l : Line} (hl : s.lookup (p.block s.lineSize) = some l) :
    (s.access p).result = .ok (some (p.loaded l.data s.lineSize,
      s.update (p.block s.lineSize) (·.holding (p.stored l.data s.lineSize)))) := by
  have hb : Block.align? s.lineSize p.addr = .ok (p.block s.lineSize) := Block.align?_of_pos hs p.addr
  have hcheck : p.checkBlock l.data s.lineSize = .ok () := by
    simp [Packet.checkBlock, h.sound.length hl, Packet.fits?_of_pos p hs, hf]
    rfl
  by_cases hw : p.command.isWrite
  · obtain ⟨data, hdata, -⟩ := hc hw
    simp [access_eq, Packet.against, hb, hl, hw, Packet.writeToBlock, hcheck, Packet.data?, hdata, Packet.loaded,
      Packet.stored]
  · simp [access_eq, Packet.against, hb, hl, hw, Packet.readFromBlock, hcheck, Packet.loaded, Packet.stored]

/-- An access to a resident block answers what the bytes of the store say, and
is performed on them. -/
theorem Valid.access_of_resident {p : Packet} (h : s.Valid) (hs : 0 < s.lineSize)
    (hp : p.IsAccess s.lineSize) {l : Line} (hl : s.lookup (p.block s.lineSize) = some l) :
    ∃ q t, (s.access p).result = .ok (some (q, t)) ∧ s.Follows t 0 ∧
      (∀ b, (t.lookup b).isSome ↔ (s.lookup b).isSome) ∧
      ∀ m, q.respond? = .ok ((s.overlay m).answer p) ∧ t.overlay m = (s.overlay m).perform p := by
  have hlen : (p.stored l.data s.lineSize).length = s.lineSize :=
    Packet.length_stored hp.fits hp.carries (h.sound.length hl)
  have hu := s.updated_update (f := (·.holding (p.stored l.data s.lineSize))) (fun _ => rfl) (p.block s.lineSize)
  refine ⟨_, _, h.access_of_lookup hs hp.fits hp.carries hl, h.follows_update (fun _ => rfl) fun _ _ => hlen,
    hu.isSome_iff, fun m => ?_⟩
  rw [h.overlay_holding hs hl hlen, ← h.read_overlay hs hl m]
  exact ⟨Packet.respond?_loaded hp.needsResponse hp.fits _, Packet.write_stored hp.fits hp.carries _⟩

end CacheSim.Store
