import CacheSim.Proofs.Memory.Session

/-!
# Every read shows the latest writes

A timed memory is one flat array of bytes, whichever way it is accessed.  The writes
that its calls performed are listed in order (`MemorySession.history`), and each byte
that is read is that of the last write in the list that covers it, or zero if there
is none (`FlatMemory.latest`).

* `FlatMemory.latest_concat`: one write more is a write to the flat memory;
* `MemorySession.Latest.step`: a call adds what it writes to the list, and the response
  to a request reads the bytes of the moment of its acceptance;
* `MemorySession.run_shows_latest`: what reads give after any calls, and that calls
  within the range of the memory and within its time are answered.
-/

namespace CacheSim

/-- Bytes written from an address on. -/
structure Write where
  addr : Nat
  data : Bytes
  deriving DecidableEq

/-- The address is one of those written. -/
def Write.Covers (w : Write) (a : Nat) : Prop :=
  w.addr ≤ a ∧ a < w.addr + w.data.length

instance (w : Write) (a : Nat) : Decidable (w.Covers a) :=
  inferInstanceAs (Decidable (_ ∧ _))

/-- What a packet writes. -/
def Packet.write? (p : Packet) : Option Write :=
  if p.command.isWrite then some ⟨p.addr, p.payload.getD []⟩ else none

namespace FlatMemory

/-- Each byte is that of the last write that covers it, and zero if none does. -/
def latest (ws : List Write) : FlatMemory := fun a =>
  match ws.reverse.find? (·.Covers a) with
  | some w => w.data.getD (a - w.addr) 0
  | none => 0

theorem latest_concat (ws : List Write) (w : Write) : latest (ws ++ [w]) = (latest ws).write w.addr w.data := by
  funext a
  simp only [latest, List.reverse_append, List.reverse_singleton, List.singleton_append, List.find?_cons]
  by_cases hc : w.Covers a
  · rw [decide_eq_true hc, write_apply_of_mem _ hc.1 hc.2 0]
  · rw [decide_eq_false hc]
    by_cases hlt : a < w.addr
    · rw [write_apply_of_lt _ _ hlt, latest]
    · rw [write_apply_of_le _ (Nat.not_lt.mp fun h => hc ⟨Nat.not_lt.mp hlt, h⟩), latest]

/-- Writes elsewhere do not change a byte. -/
theorem latest_append_of_not_covers {ws more : List Write} {a : Nat} (h : ∀ w ∈ more, ¬ w.Covers a) :
    latest (ws ++ more) a = latest ws a := by
  have hnone : more.reverse.find? (·.Covers a) = none :=
    List.find?_eq_none.mpr fun w hw => by simpa using h w (List.mem_reverse.mp hw)
  rw [latest, List.reverse_append, List.find?_append, hnone, Option.none_or, latest]

/-- A packet adds what it writes. -/
theorem perform_latest (ws : List Write) (p : Packet) : (latest ws).perform p = latest (ws ++ p.write?.toList) := by
  unfold perform Packet.write?
  split
  · exact (latest_concat ws ⟨p.addr, p.payload.getD []⟩).symm
  · simp

end FlatMemory

namespace MemorySession

variable {s t : MemorySession} {c : MemoryCall} {clock : Clock} {latency : Tick} {buffer size : Nat}

/-- The request that the memory accepts in a call. -/
def accepted? (s : MemorySession) : MemoryCall → Option Packet
  | .offer p =>
    match (s.memory.offer p).result with
    | .ok (.accepted, _) => some p
    | _ => none
  | _ => none

/-- What a call writes. -/
def writes (s : MemorySession) : MemoryCall → List Write
  | .functional p => p.write?.toList
  | .write addr data => [⟨addr, data⟩]
  | c => ((s.accepted? c).bind (·.write?)).toList

/-- What calls write, in order. -/
def history : List MemoryCall → MemorySession → List Write
  | [], _ => []
  | c :: rest, s =>
    s.writes c ++
      match (s.perform c).result with
      | .ok t => history rest t
      | .error _ => []

/-- The response that a call makes the memory owe, if its bytes are `m`. -/
def responses (s : MemorySession) (m : FlatMemory) (c : MemoryCall) : List Packet :=
  ((s.accepted? c).toList.filter (·.command.needsResponse)).map m.answer

/-- The responses that calls make the memory owe after the writes `ws`: each one reads the
latest writes of the moment when its request was accepted. -/
def owing : List MemoryCall → MemorySession → List Write → List Packet
  | [], _, _ => []
  | c :: rest, s, ws =>
    s.responses (.latest ws) c ++
      match (s.perform c).result with
      | .ok t => owing rest t (ws ++ s.writes c)
      | .error _ => []

/-! ## What a call adds -/

/-- An offer is accepted or changes nothing but a flag. -/
theorem offer_cases {p : Packet} (h : (s.perform (.offer p)).result = .ok t) :
    s.accepted? (.offer p) = some p ∧ t = s.accepting p (s.memory.performed p) ∨
      s.accepted? (.offer p) = none ∧ t = { s with memory := { s.memory with retryPending := true } } := by
  simp only [perform, Sim.result_bind] at h
  obtain ⟨x, hx, h⟩ := Sim.bind_eq_ok.mp h
  obtain rfl := TimedMemory.offer_eq_ok hx
  unfold TimedMemory.handle at hx h
  simp only [accepted?, hx]
  split at h
  · rename_i hfull
    rw [if_pos hfull]
    exact .inr ⟨rfl, (Except.ok.inj h).symm⟩
  · rename_i hroom
    rw [if_neg hroom]
    exact .inl ⟨rfl, (Except.ok.inj h).symm⟩

/-- The bytes show the latest of the writes, and the accepted requests have the
responses `rs`. -/
structure Latest (s : MemorySession) (size : Nat) (ws : List Write) (rs : List Packet) : Prop where
  range : s.memory.range = ⟨0, size⟩
  contents : s.contents = .latest ws
  answers : s.answered.map (·.answer) = rs

variable {ws : List Write} {rs : List Packet}

theorem Latest.step (h : s.Latest size ws rs) (ht : (s.perform c).result = .ok t) :
    t.Latest size (ws ++ s.writes c) (rs ++ s.responses (.latest ws) c) := by
  -- a call that writes nothing and accepts no request
  have hquiet : ∀ {u : MemorySession}, u.memory.range = s.memory.range → u.contents = s.contents →
      u.accepted = s.accepted → u.Latest size (ws ++ []) (rs ++ []) := fun {u} hr hc ha => by
    rw [List.append_nil, List.append_nil]
    exact ⟨hr.trans h.range, hc.trans h.contents, by rw [answered, ha]; exact h.answers⟩
  have hm := moves_of_perform ht
  cases c with
  | offer p =>
    rcases offer_cases ht with ⟨hacc, rfl⟩ | ⟨hacc, rfl⟩
    · refine ⟨h.range, ?_, ?_⟩
      · show s.contents.perform p = .latest (ws ++ ((s.accepted? (.offer p)).bind (·.write?)).toList)
        rw [h.contents, FlatMemory.perform_latest, hacc, Option.bind_some]
      · rw [answered_accepting, List.map_append, h.answers, responses, hacc, ← h.contents]
        by_cases hr : p.command.needsResponse <;> simp [hr, AcceptedRequest.answer]
    · simp only [writes, responses, hacc]
      exact hquiet rfl rfl rfl
  | functional p =>
    cases hm
    refine ⟨h.range, ?_, (List.append_nil rs).symm ▸ h.answers⟩
    show s.contents.perform p = _
    rw [h.contents, FlatMemory.perform_latest]
    rfl
  | write addr data =>
    cases hm
    refine ⟨h.range, ?_, (List.append_nil rs).symm ▸ h.answers⟩
    show s.contents.write addr data = _
    rw [h.contents]
    exact (FlatMemory.latest_concat ws ⟨addr, data⟩).symm
  | cycle n => cases hm; exact hquiet rfl rfl rfl
  | takeResponse => cases hm <;> exact hquiet rfl rfl rfl
  | takeRetry => cases hm; exact hquiet rfl rfl rfl
  | read addr size => cases hm; exact hquiet rfl rfl rfl

theorem latest_run {calls : List MemoryCall} (h : s.Latest size ws rs) (hrun : (run calls s).result = .ok t) :
    t.Latest size (ws ++ history calls s) (rs ++ owing calls s ws) := by
  induction calls generalizing s ws rs with
  | nil =>
    obtain rfl := Except.ok.inj hrun
    simpa [history, owing] using h
  | cons c rest ih =>
    rw [run, Sim.result_bind] at hrun
    obtain ⟨u, hu, hrun⟩ := Sim.bind_eq_ok.mp hrun
    rw [history, owing, hu, ← List.append_assoc, ← List.append_assoc]
    exact ih (h.step hu) hrun

/-! ## Reads -/

/-- The bytes of a memory of `size` bytes are those of the latest writes, and a call
changes only bytes that it writes. -/
structure ShowsLatest (s : MemorySession) (size : Nat) (ws : List Write) : Prop where
  /-- Bytes that are read directly, up to the last address. -/
  read : ∀ addr n, addr + (n - 1) < Word.bound →
    s.memory.bytes.read addr n = .ok ((FlatMemory.latest ws).read addr n)
  /-- A read past the timing path is answered and leaves the memory as it is. -/
  functional : ∀ p, p.command.isRead → p.addr + p.size ≤ size →
    (s.memory.functional p).result = .ok ((FlatMemory.latest ws).answer p, s.memory)
  frame : ∀ c t, (s.perform c).result = .ok t → ∀ a, (∀ w ∈ s.writes c, ¬ w.Covers a) →
    t.memory.bytes.byte a = s.memory.bytes.byte a

theorem Latest.shows (h : s.Latest size ws rs) (hc : s.Consistent clock latency buffer) (hsize : size < Word.bound) :
    s.ShowsLatest size ws := by
  have hbytes : s.memory.contents = .latest ws := hc.contents.trans h.contents
  refine ⟨fun addr n hlast => ?_, fun p hread hrange => ?_, fun c t ht a hw => ?_⟩
  · have hadd : Word.add addr (n - 1) = .ok (addr + (n - 1)) := Word.add_eq_ok.mpr ⟨hlast, rfl⟩
    rw [Chunks.read, Chunks.checkLast, hadd, Chunks.slice_eq_read]
    exact congrArg (fun m => Except.ok (FlatMemory.read m addr n)) hbytes
  · have hnot : p.command.isWrite = false := by rw [Command.isWrite_eq_not_isRead, hread]; rfl
    have hreaches : s.memory.Reaches p := by
      refine ⟨?_, ?_, ?_, fun hw => absurd hw (by rw [hnot]; simp)⟩ <;> rw [h.range]
      · exact Nat.zero_le _
      · exact hrange
      · exact hsize
    rw [hreaches.result_functional, hbytes, hnot]
    rfl
  · have hc' := hc.step (moves_of_perform ht)
    have hbytes' : t.memory.contents = .latest (ws ++ s.writes c) := hc'.contents.trans (h.step ht).contents
    show t.memory.contents a = s.memory.contents a
    rw [hbytes', hbytes, FlatMemory.latest_append_of_not_covers hw]

end MemorySession

/-! ## Calls that are answered -/

/-- A call within the range of a memory of `size` bytes, and within the time that a
word can count. -/
def MemoryCall.Within (clock : Clock) (latency : Tick) (size : Nat) : MemoryCall → Prop
  | .offer p => p.addr + p.size ≤ size ∧ p.Carries
  | .functional p => p.addr + p.size ≤ size ∧ p.Carries
  | .cycle n => n * clock.period + latency < Word.bound
  | .read addr n => addr + (n - 1) < Word.bound
  | .write addr data => addr + (data.length - 1) < Word.bound
  | _ => True

namespace MemorySession

variable {s t : MemorySession} {c : MemoryCall} {clock : Clock} {latency : Tick} {buffer size : Nat}
  {ws : List Write} {rs : List Packet}

/-- A call within range and time is answered. -/
theorem Latest.exists_perform (h : s.Latest size ws rs) (hc : s.Consistent clock latency buffer)
    (hsize : size < Word.bound) (hnow : s.now + latency < Word.bound) (hw : c.Within clock latency size) :
    ∃ t, (s.perform c).result = .ok t := by
  have hreaches : ∀ {p : Packet}, p.addr + p.size ≤ size ∧ p.Carries → s.memory.Reaches p := fun ⟨hstop, hcarries⟩ => by
    refine ⟨?_, ?_, ?_, hcarries⟩ <;> rw [h.range]
    · exact Nat.zero_le _
    · exact hstop
    · exact hsize
  have hlast : ∀ {addr n : Nat}, addr + (n - 1) < Word.bound → Word.add addr (n - 1) = .ok (addr + (n - 1)) :=
    fun hlt => Word.add_eq_ok.mpr ⟨hlt, rfl⟩
  cases c with
  | offer p =>
    obtain ⟨hstart, hstop, hword, hcarries⟩ := hreaches hw
    have hserves : s.memory.Serves p :=
      ⟨hc.bytes, hstart, hstop, hword, hcarries, by rw [hc.now, hc.latency]; exact hnow⟩
    simp only [perform, Sim.result_bind, hserves.result_offer, Sim.ok_bind]
    split <;> exact ⟨_, rfl⟩
  | functional p =>
    simp only [perform, Sim.result_bind, (hreaches hw).result_functional, Sim.ok_bind]
    exact ⟨_, rfl⟩
  | cycle n =>
    have hticks : s.memory.clock.ticksOf n = .ok (n * s.memory.clock.period) := by
      refine Word.mul_eq_ok.mpr ⟨?_, rfl⟩
      rw [hc.clock]
      exact Nat.lt_of_le_of_lt (Nat.le_add_right _ _) hw
    simp only [perform, Sim.result_bind, Sim.result_liftM, TimedMemory.cycle, hticks, Sim.ok_bind]
    exact ⟨_, rfl⟩
  | takeResponse =>
    simp only [perform]
    split <;> exact ⟨_, rfl⟩
  | takeRetry => exact ⟨_, rfl⟩
  | read addr n =>
    simp only [perform, Sim.result_bind, Sim.result_liftM, Chunks.read, Chunks.checkLast, hlast hw, Sim.ok_bind]
    exact ⟨_, rfl⟩
  | write addr data =>
    simp only [perform, Sim.result_bind, Sim.result_liftM, Chunks.write, Chunks.checkLast, hlast hw, Sim.ok_bind]
    exact ⟨_, rfl⟩

theorem Latest.exists_run {calls : List MemoryCall} (h : s.Latest size ws rs)
    (hc : s.Consistent clock latency buffer) (hsize : size < Word.bound) (hnow : s.now + latency < Word.bound)
    (hw : ∀ c ∈ calls, c.Within clock latency size) : ∃ t, (run calls s).result = .ok t := by
  induction calls generalizing s ws rs with
  | nil => exact ⟨s, rfl⟩
  | cons c rest ih =>
    have hwc := hw c (List.mem_cons_self ..)
    obtain ⟨u, hu⟩ := h.exists_perform hc hsize hnow hwc
    have hm := moves_of_perform hu
    have hnow' : u.now + latency < Word.bound := by
      rw [hm.now_eq hc.clock]
      cases c with
      | cycle n => exact hwc
      | _ => exact hnow
    obtain ⟨t, ht⟩ := ih (h.step hu) (hc.step hm) hnow' fun c hc => hw c (List.mem_cons_of_mem _ hc)
    exact ⟨t, by rw [run, Sim.result_bind, hu, Sim.ok_bind, ht]⟩

theorem latest_start {name : String} {cycles : Nat} (h : (start name clock cycles buffer size).result = .ok s) :
    s.Latest size [] [] ∧ cycles * clock.period < Word.bound := by
  simp only [start, TimedMemory.build, Sim.result_bind, Sim.result_liftM] at h
  obtain ⟨m, hm, h⟩ := Sim.bind_eq_ok.mp h
  obtain ⟨l, hl, hm⟩ := Sim.bind_eq_ok.mp hm
  obtain rfl := Except.ok.inj hm
  obtain rfl := Except.ok.inj h
  exact ⟨⟨rfl, rfl, rfl⟩, (Word.mul_eq_ok.mp hl).1⟩

/-- A memory of zeros is one flat array of bytes.  After any calls that it answered, bytes
read directly, past the timing path or by a timing request are those of the latest
writes, be they direct, past the timing path, or accepted requests and writebacks; and
it answers all calls within its range and time. -/
theorem run_shows_latest {name : String} {cycles : Nat} (hsize : size < Word.bound)
    (hstart : (start name clock cycles buffer size).result = .ok s) (calls : List MemoryCall) :
    (∀ t, (run calls s).result = .ok t →
      t.ShowsLatest size (history calls s) ∧ t.taken ++ t.memory.owed = owing calls s []) ∧
    ((∀ c ∈ calls, c.Within clock (cycles * clock.period) size) → ∃ t, (run calls s).result = .ok t) := by
  obtain ⟨hc, -, hnow⟩ := consistent_start hstart
  obtain ⟨hlatest, hlatency⟩ := latest_start hstart
  refine ⟨fun t ht => ?_, fun hw => hlatest.exists_run hc hsize ?_ hw⟩
  · have hrun := latest_run hlatest ht
    exact ⟨hrun.shows (hc.run ht) hsize, (hc.run ht).owed.trans hrun.answers⟩
  · rwa [hnow, Nat.zero_add]

/-- The theorem at writes of every kind that overlap across the border of two chunks, and at
a read whose response is taken after the writes that it does not show. -/
theorem run_shows_latest_of_overlap :
    ∃ s t, (start "mem" ⟨10⟩ 2 1 256).result = .ok s ∧
      (run [.write 62 [1, 2, 3, 4], .offer (.read 60 8 0), .offer (.write 64 [9] 0), .functional (.write 63 [7] 0),
        .offer (.writeback 65 [5, 6]), .cycle 2, .takeResponse] s).result = .ok t ∧
      t.ShowsLatest 256 [⟨62, [1, 2, 3, 4]⟩, ⟨63, [7]⟩, ⟨65, [5, 6]⟩] ∧
      t.memory.bytes.read 60 8 = .ok [0, 0, 1, 7, 3, 5, 6, 0] ∧
      (t.taken ++ t.memory.owed).map (·.payload) = [some [0, 0, 1, 2, 3, 4, 0, 0]] := by
  obtain ⟨s, hs⟩ : ∃ s, s = (⟨⟨"mem", ⟨10⟩, 20, ⟨0, 256⟩, .empty, .empty (some 1), [], 0, false, false, []⟩,
    fun _ => 0, [], [], []⟩ : MemorySession) := ⟨_, rfl⟩
  have hstart : (start "mem" ⟨10⟩ 2 1 256).result = .ok s := hs ▸ rfl
  obtain ⟨hall, hanswered⟩ := run_shows_latest (by decide) hstart
    [.write 62 [1, 2, 3, 4], .offer (.read 60 8 0), .offer (.write 64 [9] 0), .functional (.write 63 [7] 0),
      .offer (.writeback 65 [5, 6]), .cycle 2, .takeResponse]
  obtain ⟨t, ht⟩ := hanswered (by
    simp only [List.forall_mem_cons, List.not_mem_nil, false_implies, implies_true, MemoryCall.Within, Packet.Carries]
    decide)
  obtain ⟨hshows, howed⟩ := hall t ht
  have hhistory : history [.write 62 [1, 2, 3, 4], .offer (.read 60 8 0), .offer (.write 64 [9] 0),
      .functional (.write 63 [7] 0), .offer (.writeback 65 [5, 6]), .cycle 2, .takeResponse] s =
        [⟨62, [1, 2, 3, 4]⟩, ⟨63, [7]⟩, ⟨65, [5, 6]⟩] := by
    rw [hs]; rfl
  rw [hhistory] at hshows
  refine ⟨s, t, hstart, ht, hshows, (hshows.read 60 8 (by decide)).trans (by rfl), ?_⟩
  rw [howed, hs]
  rfl

end MemorySession

end CacheSim
