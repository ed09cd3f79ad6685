import CacheSim.Memory.Timed
import CacheSim.Proofs.Memory.Chunks
import CacheSim.Proofs.Port

/-!
# The timed memory as a conforming peer

A timed memory performs the requests that it accepts on its bytes, which are a
flat memory, and owes the answers that are on their way or available.
-/

namespace CacheSim

namespace TimedMemory

variable {m : TimedMemory} {p : Packet}

/-- The bytes of the memory. -/
def contents (m : TimedMemory) : FlatMemory :=
  m.bytes.byte

/-- The answers that are available or on their way, the next one in front. -/
def owed (m : TimedMemory) : List Packet :=
  m.ready ++ m.inFlight.items.map (·.packet)

/-- A packet in the range of the memory; a write carries its payload. -/
structure Reaches (m : TimedMemory) (p : Packet) : Prop where
  start : m.range.start ≤ p.addr
  stop : p.addr + p.size ≤ m.range.stop
  word : m.range.stop < Word.bound
  carries : p.Carries

/-- A request that the memory can perform: it lies in the range, a write carries
its payload, and the time of its answer is a word. -/
structure Serves (m : TimedMemory) (p : Packet) : Prop where
  bytes : m.bytes.Valid
  start : m.range.start ≤ p.addr
  stop : p.addr + p.size ≤ m.range.stop
  word : m.range.stop < Word.bound
  carries : p.Carries
  ready : m.now + m.latency < Word.bound

/-- The memory after it performed a request. -/
def performed (m : TimedMemory) (p : Packet) : TimedMemory :=
  { m with
    receipts := (p.command, p.addr, p.size) :: m.receipts
    bytes := if p.command.isWrite then m.bytes.overlay p.addr (p.payload.getD []) else m.bytes
    inFlight :=
      if p.command.needsResponse then
        m.inFlight.enqueue { ready := m.now + m.latency, packet := m.contents.answer p }
      else m.inFlight }

/-- Performs a request or hands it back. -/
def handle (m : TimedMemory) (p : Packet) : Handshake × TimedMemory :=
  if p.command.needsResponse && m.inFlight.isFull then (.refused p, { m with retryPending := true })
  else (.accepted, m.performed p)

theorem Reaches.checkRange (h : m.Reaches p) : m.checkRange p = .ok () := by
  have hstop := h.stop
  have hword := h.word
  have hadd : Word.add p.addr p.size = .ok (p.addr + p.size) := Word.add_eq_ok.mpr ⟨by omega, rfl⟩
  simp only [TimedMemory.checkRange, hadd, Sim.ok_bind]
  exact if_pos ⟨h.start, hstop⟩

theorem checkLast_eq_ok {addr size : Nat} (h : addr + size < Word.bound) :
    Chunks.checkLast addr size = .ok () := by
  have hadd : Word.add addr (size - 1) = .ok (addr + (size - 1)) := Word.add_eq_ok.mpr ⟨by omega, rfl⟩
  simp only [Chunks.checkLast, hadd, Sim.ok_bind]
  rfl

/-- The packet that an access answers, and the bytes after it. -/
theorem Reaches.result_access (h : m.Reaches p) :
    (m.access p).result = .ok ({ m.contents.answer p with command := p.command },
      { m with bytes := if p.command.isWrite then m.bytes.overlay p.addr (p.payload.getD []) else m.bytes }) := by
  have hstop := h.stop
  have hword := h.word
  by_cases hw : p.command.isWrite
  · obtain ⟨data, hd, hl⟩ := h.carries hw
    have hlast : Chunks.checkLast p.addr data.length = .ok () := checkLast_eq_ok (by omega)
    simp [access, h.checkRange, hw, Packet.data?, hd, Chunks.write, hlast, FlatMemory.answer]
    rw [← hd]
  · have hlast : Chunks.checkLast p.addr p.size = .ok () := checkLast_eq_ok (by omega)
    simp [access, h.checkRange, hw, Command.isRead_of_not_isWrite hw, Chunks.read, hlast, Packet.setData?,
      FlatMemory.answer, Chunks.slice_eq_read, contents]

/-- A request is performed or handed back. -/
theorem Serves.result_offer (h : m.Serves p) : (m.offer p).result = .ok (m.handle p) := by
  unfold offer handle
  by_cases hfull : (p.command.needsResponse && m.inFlight.isFull)
  · simp [hfull]
  · have hacc := Reaches.result_access (m := { m with receipts := (p.command, p.addr, p.size) :: m.receipts })
      (p := p) ⟨h.start, h.stop, h.word, h.carries⟩
    rw [if_neg hfull, if_neg hfull]
    by_cases hr : p.command.needsResponse
    · have hans : Packet.respond? { m.contents.answer p with command := p.command } = .ok (m.contents.answer p) :=
        Packet.respond?_of_needsResponse hr
      have hadd : Word.add m.now m.latency = .ok (m.now + m.latency) := Word.add_eq_ok.mpr ⟨h.ready, rfl⟩
      have hans' := hans
      simp only [contents] at hans'
      simp [hacc, hr, performed, hadd, contents, hans']
    · simp [hacc, hr, performed]

/-- An access past the timing path is performed at once. -/
theorem Reaches.result_functional (h : m.Reaches p) :
    (m.functional p).result = .ok (m.contents.answer p,
      { m with bytes := if p.command.isWrite then m.bytes.overlay p.addr (p.payload.getD []) else m.bytes }) := by
  by_cases hr : p.command.needsResponse
  · have hans : Packet.respond? { m.contents.answer p with command := p.command } = .ok (m.contents.answer p) :=
      Packet.respond?_of_needsResponse hr
    simp only [functional, Sim.result_bind, h.result_access, Sim.ok_bind, if_pos hr, Sim.result_liftM, hans,
      Sim.result_pure]
  · have hnone : p.command.response? = none := by simpa [Command.needsResponse] using hr
    simp only [functional, Sim.result_bind, h.result_access, Sim.ok_bind, if_neg hr, Sim.result_pure,
      FlatMemory.answer, hnone, Option.getD_none]

/-! ## Time -/

/-- The memory at a later time: the responses that are due became available. -/
def advanced (m : TimedMemory) (now : Tick) : TimedMemory :=
  { m with
    now
    inFlight := (m.inFlight.drainWhile (·.ready ≤ now)).2
    ready := m.ready ++ (m.inFlight.drainWhile (·.ready ≤ now)).1.map (·.packet) }

theorem cycle_eq_ok {cycle now : Nat} (hclock : m.clock.ticksOf cycle = .ok now)
    (hretry : m.retryPending = false) : m.cycle cycle = .ok (m.advanced now) := by
  simp only [TimedMemory.cycle, hclock, Sim.ok_bind, hretry, Bool.false_and, Bool.or_false, advanced]
  rfl

/-- The only response that is on its way stays there until it is due. -/
theorem advanced_of_lt {e : InFlight} {now : Tick} (hready : m.ready = []) (hflight : m.inFlight.items = [e])
    (hlt : now < e.ready) : (m.advanced now).ready = [] ∧ (m.advanced now).inFlight.items = [e] := by
  have hnot : ¬ e.ready ≤ now := Nat.not_le.mpr hlt
  simp [advanced, Fifo.drainWhile, hready, hflight, hnot]

/-- The only response that is on its way is available when it is due. -/
theorem advanced_of_le {e : InFlight} {now : Tick} (hready : m.ready = []) (hflight : m.inFlight.items = [e])
    (hle : e.ready ≤ now) : (m.advanced now).ready = [e.packet] ∧ (m.advanced now).inFlight.items = [] := by
  simp [advanced, Fifo.drainWhile, hready, hflight, hle]

/-- Responses that become available were owed before. -/
theorem owed_advanced (m : TimedMemory) (now : Tick) : (m.advanced now).owed = m.owed := by
  simp only [owed, advanced, Fifo.drainWhile, List.append_assoc, ← List.map_append,
    List.takeWhile_append_dropWhile]

theorem Serves.advanced (h : m.Serves p) {now : Nat} (hready : now + m.latency < Word.bound) :
    (m.advanced now).Serves p :=
  ⟨h.bytes, h.start, h.stop, h.word, h.carries, hready⟩

instance : LawfulMemory TimedMemory where
  handle := handle
  Serves := Serves
  contents := contents
  owed := owed
  result_receive h := h.result_offer
  handle_cases {m p} h := by
    unfold handle
    by_cases hfull : (p.command.needsResponse && m.inFlight.isFull)
    · rw [if_pos hfull]
      exact .inr ⟨rfl, rfl, rfl⟩
    · rw [if_neg hfull]
      refine .inl ⟨rfl, ?_, ?_⟩
      · by_cases hw : p.command.isWrite
        · obtain ⟨data, hd, -⟩ := h.carries hw
          rw [FlatMemory.perform_of_write _ hw hd]
          simp only [contents, performed, hw, hd, if_true, Option.getD_some]
          exact h.bytes.byte_overlay p.addr data
        · rw [FlatMemory.perform_of_read _ (by simpa using hw)]
          simp only [contents, performed, hw]
          rfl
      · by_cases hr : p.command.needsResponse
        · simp [owed, performed, hr, Fifo.enqueue, FlatMemory.answers]
        · simp [owed, performed, hr, FlatMemory.answers]
  serves_handle {m p q} hp hq := by
    unfold handle
    split
    · exact ⟨hq.bytes, hq.start, hq.stop, hq.word, hq.carries, hq.ready⟩
    · refine ⟨?_, hq.start, hq.stop, hq.word, hq.carries, hq.ready⟩
      show Chunks.Valid (if _ then _ else _)
      split
      · exact hq.bytes.overlay _ _
      · exact hq.bytes

end TimedMemory

/-- The memory performs a packet that is not answered, and any packet if it has
room for the answer. -/
theorem MemSidePort.forwarded_of_room {m : MemSidePort TimedMemory} {p : Packet}
    (h : p.command.needsResponse = false ∨ m.peer.inFlight.isFull = false) :
    m.forwarded p = { m with peer := m.peer.performed p } := by
  have hr : LawfulMemory.handle m.peer p = (.accepted, m.peer.performed p) := if_neg (by
    rcases h with h | h <;> simp [h])
  simp only [forwarded, hr]

end CacheSim
