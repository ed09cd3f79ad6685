import CacheSim.Proofs.Packet

/-!
# Accesses to different blocks

A packet that fits into a block reads and writes bytes of this block only.  So
accesses to different blocks do not disturb each other: they can change places
(`perform_comm`, `perform_after`), and the answer to one is the same before and
after the other (`answer_perform`).
-/

namespace CacheSim

/-- A packet that stays within one block. -/
structure Packet.InBlock (p : Packet) (size : Nat) : Prop where
  fits : p.Fits size
  carries : p.Carries

theorem Packet.IsAccess.inBlock {p : Packet} {size : Nat} (h : p.IsAccess size) : p.InBlock size :=
  ⟨h.fits, h.carries⟩

theorem Packet.IsBlock.block_eq {p : Packet} {size : Nat} (h : p.IsBlock size) : p.block size = p.addr :=
  Block.align_of_dvd h.dvd

theorem Packet.IsBlock.inBlock {p : Packet} {size : Nat} (h : p.IsBlock size) : p.InBlock size := by
  refine ⟨?_, h.carries⟩
  have haddr := p.addr_eq size
  rw [h.block_eq] at haddr
  show p.offset size + p.size ≤ size
  rw [h.size_eq]
  omega

namespace FlatMemory

variable {m m' : FlatMemory} {p q : Packet} {size : Nat}

/-- The bytes of a packet are in its block. -/
theorem align_of_mem (hs : 0 < size) (h : p.Fits size) {a : Nat} (h₁ : p.addr ≤ a) (h₂ : a < p.addr + p.size) :
    Block.align size a = p.block size := by
  have haddr := p.addr_eq size
  have hfits : p.offset size + p.size ≤ size := h
  exact (Block.align_eq_iff hs (p.dvd_block size)).mpr (by omega)

/-- What a packet leaves at an address depends on the byte that was there only. -/
theorem perform_apply_congr {a : Nat} (h : m' a = m a) (p : Packet) : m'.perform p a = m.perform p a := by
  unfold perform
  split
  · simp only [write, h]
  · exact h

theorem perform_apply_of_ne (hs : 0 < size) (h : p.InBlock size) {a : Nat}
    (ha : Block.align size a ≠ p.block size) (m : FlatMemory) : m.perform p a = m a := by
  by_cases hw : p.command.isWrite
  · obtain ⟨data, hd, hl⟩ := h.carries hw
    rw [perform_of_write m hw hd]
    by_cases h₁ : a < p.addr
    · exact write_apply_of_lt m data h₁
    · refine write_apply_of_le m (Nat.le_of_not_lt fun h₂ => ha ?_)
      exact align_of_mem hs h.fits (Nat.le_of_not_lt h₁) (hl ▸ h₂)
  · rw [perform_of_read m (by simpa using hw)]

theorem answer_congr (hs : 0 < size) (hf : p.Fits size)
    (h : ∀ a, Block.align size a = p.block size → m' a = m a) : m'.answer p = m.answer p := by
  have hread : m'.read p.addr p.size = m.read p.addr p.size :=
    read_congr fun i hi => h _ (align_of_mem hs hf (Nat.le_add_right ..) (by omega))
  rw [answer, answer, hread]

/-- Packets in different blocks can change places. -/
theorem perform_comm (hs : 0 < size) (hp : p.InBlock size) (hq : q.InBlock size)
    (h : p.block size ≠ q.block size) (m : FlatMemory) : (m.perform p).perform q = (m.perform q).perform p := by
  funext a
  by_cases ha : Block.align size a = p.block size
  · have hne : Block.align size a ≠ q.block size := ha ▸ h
    rw [perform_apply_of_ne hs hq hne, perform_apply_congr (perform_apply_of_ne hs hq hne m)]
  · rw [perform_apply_of_ne hs hp ha, perform_apply_congr (perform_apply_of_ne hs hp ha m)]

/-- A packet in another block does not change an answer. -/
theorem answer_perform (hs : 0 < size) (hp : p.InBlock size) (hq : q.InBlock size)
    (h : p.block size ≠ q.block size) (m : FlatMemory) : (m.perform p).answer q = m.answer q :=
  answer_congr hs hq.fits fun _ ha => perform_apply_of_ne hs hp (fun hb => h (hb.symm.trans ha)) m

theorem after_apply_of_ne (hs : 0 < size) {ps : List Packet} {a : Nat}
    (h : ∀ p ∈ ps, p.InBlock size ∧ Block.align size a ≠ p.block size) (m : FlatMemory) : m.after ps a = m a := by
  induction ps generalizing m with
  | nil => rfl
  | cons p ps ih =>
    obtain ⟨hp, ha⟩ := h p (List.mem_cons_self ..)
    rw [after_cons, ih fun q hq => h q (List.mem_cons_of_mem p hq), perform_apply_of_ne hs hp ha]

/-- A packet can change places with packets in other blocks. -/
theorem perform_after (hs : 0 < size) (hp : p.InBlock size) {ps : List Packet}
    (h : ∀ q ∈ ps, q.InBlock size ∧ q.block size ≠ p.block size) (m : FlatMemory) :
    (m.perform p).after ps = (m.after ps).perform p := by
  induction ps generalizing m with
  | nil => rfl
  | cons q ps ih =>
    obtain ⟨hq, hne⟩ := h q (List.mem_cons_self ..)
    rw [after_cons, perform_comm hs hp hq hne.symm, ih fun r hr => h r (List.mem_cons_of_mem q hr), after_cons]

/-- What is done to another block does not change answers. -/
theorem answers_perform (hs : 0 < size) (hp : p.InBlock size) {ps : List Packet}
    (h : ∀ q ∈ ps, q.InBlock size ∧ q.block size ≠ p.block size) (m : FlatMemory) :
    (m.perform p).answers ps = m.answers ps := by
  induction ps generalizing m with
  | nil => rfl
  | cons q ps ih =>
    obtain ⟨hq, hne⟩ := h q (List.mem_cons_self ..)
    rw [answers, answers, answer_perform hs hp hq hne.symm, perform_comm hs hp hq hne.symm,
      ih fun r hr => h r (List.mem_cons_of_mem q hr)]

/-- A write of a block hides what was done to the block before. -/
theorem write_block_after (hs : 0 < size) {addr : Nat} {data : Bytes} (hd : size ∣ addr)
    (hl : data.length = size) {ps : List Packet} (h : ∀ p ∈ ps, p.InBlock size ∧ p.block size = addr)
    (m : FlatMemory) : (m.after ps).write addr data = m.write addr data := by
  funext a
  rw [write_block_apply _ hs hd hl a 0, write_block_apply _ hs hd hl a 0]
  split
  · rfl
  · rename_i ha
    exact after_apply_of_ne hs (fun p hp => ⟨(h p hp).1, (h p hp).2 ▸ ha⟩) m

end FlatMemory

end CacheSim
