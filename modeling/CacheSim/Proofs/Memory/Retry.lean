import CacheSim.Proofs.Cache.Recorded
import CacheSim.Proofs.Memory.Session

/-!
# Requests that are tried again

A memory side port in front of a timed memory.  A request that the memory refused
waits in the port, and the memory owes the port a signal, which is pending as long as
there is no room and then waits to be taken (`MemSidePort.Agrees`).  Only a cycle makes
room, and nothing is sent while a request waits, so the room is still there when the
signal is taken, and the request is accepted then.

* `TimedMemory.isFull_advanced`: a cycle does not fill the buffer;
* `MemSidePort.agrees_of_forwarded`, `Agrees.cycle`, `Agrees.takeRetry`: a request that is
  offered, a cycle and a signal keep the agreement of port and memory, and so does
  every call (`Agrees.step`);
* `MemSidePort.run_retries`: no signal is lost, none is given without need, and the
  memory accepts the requests in the order in which they were sent.
-/

namespace CacheSim

namespace TimedMemory

/-- A cycle does not fill the buffer. -/
theorem isFull_advanced (m : TimedMemory) (now : Tick) (h : (m.advanced now).inFlight.isFull) : m.inFlight.isFull := by
  have hle : (m.advanced now).inFlight.size ≤ m.inFlight.size := (List.dropWhile_sublist _).length_le
  have hlimit : (m.advanced now).inFlight.limit = m.inFlight.limit := rfl
  unfold Fifo.isFull at h ⊢
  rw [hlimit] at h
  cases hl : m.inFlight.limit with
  | none => rw [hl] at h; exact h
  | some limit =>
    rw [hl] at h
    exact decide_eq_true (Nat.le_trans (of_decide_eq_true h) hle)

end TimedMemory

/-- What the memory notes of a request that it accepts. -/
def Packet.receipt (p : Packet) : Receipt :=
  (p.command, p.addr, p.size)

/-- An offer to a recorded memory that is answered performs the request or hands it back. -/
theorem Recorded.receive_eq_ok {m : Recorded TimedMemory} {p : Packet} {x : Handshake × Recorded TimedMemory}
    (h : (RequestReceiver.receive m p).result = .ok x) : x = LawfulMemory.handle m p := by
  simp only [RequestReceiver.receive, Sim.result_bind] at h
  obtain ⟨reply, hreply, h⟩ := Sim.bind_eq_ok.mp h
  obtain rfl := TimedMemory.offer_eq_ok hreply
  exact (Except.ok.inj h).symm

namespace MemSidePort

/-- A call of a port or of the memory behind it. -/
inductive Call where
  /-- A request is given to the port. -/
  | send (p : Packet)
  /-- The time of the memory moves to a clock cycle. -/
  | cycle (n : Nat)
  /-- The next available response is taken. -/
  | takeResponse
  /-- The signal to try again is taken, and passed on to the port if it was given. -/
  | takeRetry

/-- The request that a call gives to the port. -/
def Call.sent? : Call → Option Packet
  | .send p => some p
  | _ => none

variable {l k : MemSidePort (Recorded TimedMemory)} {c : Call} {given : List Packet}

/-- The memory behind the port. -/
def memory (l : MemSidePort (Recorded TimedMemory)) : TimedMemory :=
  l.peer.memory

/-- The requests that the memory accepted, the first one in front. -/
def accepted (l : MemSidePort (Recorded TimedMemory)) : List Packet :=
  l.peer.received

/-- The port with another state of the memory behind it. -/
def withMemory (l : MemSidePort (Recorded TimedMemory)) (memory : TimedMemory) : MemSidePort (Recorded TimedMemory) :=
  { l with peer := { l.peer with memory } }

/-- The start: a port that holds nothing in front of a memory of zeros. -/
def start (name memoryName : String) (clock : Clock) (latency buffer size : Nat) :
    Sim (MemSidePort (Recorded TimedMemory)) := do
  let memory ← TimedMemory.build memoryName clock latency buffer size
  return { name, peer := { memory } }

/-- Makes a call. -/
def perform (l : MemSidePort (Recorded TimedMemory)) : Call → Sim (MemSidePort (Recorded TimedMemory))
  | .send p => l.send p
  | .cycle n => do
    let memory ← l.memory.cycle n
    return l.withMemory memory
  | .takeResponse =>
    match l.memory.takeResponse with
    | none => pure l
    | some (_, memory) => pure (l.withMemory memory)
  | .takeRetry =>
    let (signal, memory) := l.memory.takeRetry
    if signal then (l.withMemory memory).retryRequest else pure (l.withMemory memory)

/-- Makes calls in order. -/
def run : List Call → MemSidePort (Recorded TimedMemory) → Sim (MemSidePort (Recorded TimedMemory))
  | [], l => pure l
  | c :: rest, l => do
    let l ← l.perform c
    run rest l

/-! ## Port and memory agree -/

/-- A request waits in the port if and only if the memory owes the port a signal, which is
pending while there is no room and may be taken once there is.  The requests `given` to
the port were accepted in order, but for the one that waits. -/
structure Agrees (l : MemSidePort (Recorded TimedMemory)) (given : List Packet) : Prop where
  parked : l.parked.isSome = (l.memory.retryPending || l.memory.sendRetry)
  once : (l.memory.retryPending && l.memory.sendRetry) = false
  full : l.memory.retryPending → l.memory.inFlight.isFull
  room : l.memory.sendRetry → l.memory.inFlight.isFull = false
  order : l.accepted ++ l.parked.toList = given
  received : l.memory.received = l.accepted.map (·.receipt)

/-- A request that the memory has room for, or that is not answered, is accepted. -/
theorem forwarded_of_accepted {p : Packet} (h : ¬ (p.command.needsResponse && l.memory.inFlight.isFull)) :
    l.forwarded p = { l with peer := {
      memory := l.memory.performed p
      received := l.accepted ++ [p]
      unanswered := l.peer.unanswered ++ [p].filter (·.command.needsResponse) } } := by
  have hr : TimedMemory.handle l.peer.memory p = (.accepted, l.peer.memory.performed p) := if_neg h
  simp only [forwarded, LawfulMemory.handle, hr, Recorded.offered, memory, accepted]

/-- A request that is offered while the memory owes no signal is accepted, or waits in the port
from then on. -/
theorem agrees_of_forwarded (hfree : l.parked = none) (hpending : l.memory.retryPending = false)
    (hsend : l.memory.sendRetry = false)
    (hreceived : l.memory.received = l.accepted.map (·.receipt))
    {p : Packet} (horder : l.accepted ++ [p] = given) : (l.forwarded p).Agrees given := by
  by_cases hfull : p.command.needsResponse && l.memory.inFlight.isFull
  · have hr : TimedMemory.handle l.peer.memory p = (.refused p, { l.peer.memory with retryPending := true }) :=
      if_pos hfull
    simp only [forwarded, LawfulMemory.handle, hr, Recorded.offered]
    exact ⟨rfl, hsend, fun _ => (Bool.and_eq_true_iff.mp hfull).2, fun h => absurd (hsend.symm.trans h) Bool.false_ne_true,
      horder, hreceived⟩
  · rw [forwarded_of_accepted hfull]
    refine ⟨?_, ?_, fun h => ?_, fun h => ?_, ?_, ?_⟩
    · show l.parked.isSome = (l.memory.retryPending || l.memory.sendRetry)
      rw [hfree, hpending, hsend]
      rfl
    · show (l.memory.retryPending && l.memory.sendRetry) = false
      rw [hpending, Bool.false_and]
    · exact absurd (hpending.symm.trans h) Bool.false_ne_true
    · exact absurd (hsend.symm.trans h) Bool.false_ne_true
    · simpa [accepted, hfree] using horder
    · simpa [memory, accepted, TimedMemory.performed, TimedMemory.received, Packet.receipt] using hreceived

/-- A cycle turns a pending signal into one that may be taken if and only if there is room. -/
theorem Agrees.cycle (h : l.Agrees given) (now : Tick) :
    (l.withMemory { l.memory.advanced now with
      retryPending := l.memory.retryPending && (l.memory.advanced now).inFlight.isFull
      sendRetry := l.memory.sendRetry || l.memory.retryPending && !(l.memory.advanced now).inFlight.isFull }).Agrees given := by
  refine ⟨?_, ?_, fun hp => (Bool.and_eq_true_iff.mp hp).2, fun hs => ?_, h.order, h.received⟩
  · show l.parked.isSome = (_ && _ || (_ || _ && !_))
    rw [h.parked]
    cases l.memory.retryPending <;> cases l.memory.sendRetry <;> cases (l.memory.advanced now).inFlight.isFull <;> rfl
  · show ((_ && _) && (_ || _ && !_)) = false
    cases hp : l.memory.retryPending with
    | false => rfl
    | true =>
      have hs : l.memory.sendRetry = false := by simpa [hp] using h.once
      rw [hs]
      cases (l.memory.advanced now).inFlight.isFull <;> rfl
  · rcases Bool.or_eq_true_iff.mp hs with hs | hp
    · refine Bool.eq_false_iff.mpr fun hfull => ?_
      exact absurd (l.memory.isFull_advanced now hfull) (Bool.eq_false_iff.mp (h.room hs))
    · exact (Bool.not_eq_true' _).mp (Bool.and_eq_true_iff.mp hp).2

/-- A signal finds a request that waits, and the memory accepts it. -/
theorem Agrees.takeRetry (h : l.Agrees given) (hs : l.memory.sendRetry) :
    ∃ p, l.parked = some p ∧ ∀ k, (l.perform .takeRetry).result = .ok k →
      k.Agrees given ∧ k.parked = none ∧ k.accepted = l.accepted ++ [p] := by
  obtain ⟨p, hp⟩ : ∃ p, l.parked = some p := Option.isSome_iff_exists.mp (by rw [h.parked, hs, Bool.or_true])
  refine ⟨p, hp, fun k hk => ?_⟩
  have hpending : l.memory.retryPending = false := by simpa [hs] using h.once
  have horder : l.accepted ++ [p] = given := by simpa [hp] using h.order
  simp only [perform, TimedMemory.takeRetry, hs, if_true] at hk
  obtain ⟨q, hq, rfl⟩ := forwarded_of_retryRequest (fun _ _ => Recorded.receive_eq_ok) hk
  obtain rfl : p = q := Option.some.inj (hp.symm.trans hq)
  -- there was room when the signal was given, and nothing was sent since
  have hroom : ¬ (p.command.needsResponse && l.memory.inFlight.isFull) := by simp [h.room hs]
  have haccepted := forwarded_of_accepted (l := (l.withMemory { l.memory with sendRetry := false }).freed) hroom
  refine ⟨agrees_of_forwarded ?_ ?_ ?_ ?_ ?_, congrArg (·.parked) haccepted, congrArg (·.accepted) haccepted⟩
  exacts [rfl, hpending, rfl, h.received, horder]

theorem Agrees.step (h : l.Agrees given) (hk : (l.perform c).result = .ok k) : k.Agrees (given ++ c.sent?.toList) := by
  cases c with
  | send p =>
    obtain ⟨hfree, rfl⟩ := forwarded_of_send (fun _ => Recorded.receive_eq_ok) hk
    have hflags : l.memory.retryPending = false ∧ l.memory.sendRetry = false := by
      simpa [hfree] using h.parked.symm
    have horder : l.accepted = given := by simpa [hfree] using h.order
    exact agrees_of_forwarded hfree hflags.1 hflags.2 h.received (congrArg (· ++ [p]) horder)
  | cycle n =>
    simp only [perform, Sim.result_bind, Sim.result_liftM] at hk
    obtain ⟨m, hm, hk⟩ := Sim.bind_eq_ok.mp hk
    obtain rfl := Except.ok.inj hk
    obtain rfl := TimedMemory.eq_of_cycle hm
    show Agrees _ (given ++ [])
    rw [List.append_nil]
    exact h.cycle (n * l.memory.clock.period)
  | takeResponse =>
    simp only [perform] at hk
    show Agrees _ (given ++ [])
    rw [List.append_nil]
    split at hk
    · exact Except.ok.inj hk ▸ h
    · rename_i p m hm
      obtain rfl := Except.ok.inj hk
      unfold TimedMemory.takeResponse at hm
      split at hm
      · cases hm
      · obtain ⟨-, rfl⟩ := Prod.mk.inj (Option.some.inj hm)
        exact ⟨h.parked, h.once, h.full, h.room, h.order, h.received⟩
  | takeRetry =>
    show Agrees _ (given ++ [])
    rw [List.append_nil]
    cases hs : l.memory.sendRetry with
    | false =>
      simp only [perform, TimedMemory.takeRetry, hs] at hk
      obtain rfl := Except.ok.inj hk
      refine ⟨?_, Bool.and_false _, h.full, fun hs => absurd hs Bool.false_ne_true, h.order, h.received⟩
      show l.parked.isSome = (l.memory.retryPending || false)
      rw [h.parked, hs]
    | true =>
      obtain ⟨p, -, hall⟩ := h.takeRetry hs
      exact (hall k hk).1

theorem agrees_start {name memoryName : String} {clock : Clock} {latency buffer size : Nat}
    (h : (start name memoryName clock latency buffer size).result = .ok l) : l.Agrees [] := by
  simp only [start, TimedMemory.build, Sim.result_bind, Sim.result_liftM] at h
  obtain ⟨m, hm, h⟩ := Sim.bind_eq_ok.mp h
  obtain ⟨ticks, -, hm⟩ := Sim.bind_eq_ok.mp hm
  obtain rfl := Except.ok.inj hm
  obtain rfl := Except.ok.inj h
  exact ⟨rfl, rfl, fun h => absurd h Bool.false_ne_true, fun h => absurd h Bool.false_ne_true, rfl, rfl⟩

theorem Agrees.run {calls : List Call} (h : l.Agrees given) (hr : (run calls l).result = .ok k) :
    k.Agrees (given ++ calls.filterMap (·.sent?)) := by
  induction calls generalizing l given with
  | nil => exact (List.append_nil given).symm ▸ Except.ok.inj hr ▸ h
  | cons c rest ih =>
    rw [MemSidePort.run, Sim.result_bind] at hr
    obtain ⟨j, hj, hr⟩ := Sim.bind_eq_ok.mp hr
    have hsent : (c :: rest).filterMap (·.sent?) = c.sent?.toList ++ rest.filterMap (·.sent?) := by
      rw [List.filterMap_cons]
      cases c.sent? <;> rfl
    rw [hsent, ← List.append_assoc]
    exact ih (h.step hj) hr

/-! ## No signal is lost and none is spurious -/

/-- What holds of a port that was given requests, and of the memory behind it. -/
structure Retries (l : MemSidePort (Recorded TimedMemory)) (given : List Packet) : Prop where
  /-- A request waits if and only if a signal is pending or may be taken. -/
  parked : l.parked.isSome ↔ l.memory.retryPending ∨ l.memory.sendRetry
  once : ¬ (l.memory.retryPending ∧ l.memory.sendRetry)
  /-- After a cycle a signal is pending only if there is no room; the first cycle with room gives it. -/
  cycle : ∀ n k, (l.perform (.cycle n)).result = .ok k →
    (k.memory.retryPending → k.memory.inFlight.isFull) ∧
      (l.memory.retryPending → k.memory.inFlight.isFull = false → k.memory.sendRetry)
  /-- A signal is given only to a port where a request waits, and the memory accepts this request. -/
  signal : l.memory.takeRetry.1 → ∃ p, l.parked = some p ∧
    ∀ k, (l.perform .takeRetry).result = .ok k → k.parked = none ∧ k.accepted = l.accepted ++ [p]
  /-- The requests that were accepted and the one that waits are those given to the port, in order. -/
  order : l.accepted ++ l.parked.toList = given
  received : l.memory.received = l.accepted.map (·.receipt)

theorem Agrees.retries (h : l.Agrees given) : l.Retries given := by
  refine ⟨?_, ?_, fun n k hk => ?_, fun hs => ?_, h.order, h.received⟩
  · rw [h.parked, Bool.or_eq_true]
  · rw [← Bool.and_eq_true, h.once]
    exact Bool.false_ne_true
  · have hagrees := h.step hk
    refine ⟨hagrees.full, fun hpending hroom => ?_⟩
    -- the request still waits after the cycle, so the signal is owed, and there is room for it
    have hwaits : k.parked.isSome := by
      simp only [perform, Sim.result_bind] at hk
      obtain ⟨m, -, hk⟩ := Sim.bind_eq_ok.mp hk
      obtain rfl := Except.ok.inj hk
      show l.parked.isSome
      rw [h.parked, hpending, Bool.true_or]
    rw [hagrees.parked, Bool.or_eq_true] at hwaits
    refine hwaits.resolve_left fun hp => ?_
    rw [hagrees.full hp] at hroom
    cases hroom
  · obtain ⟨p, hp, hall⟩ := h.takeRetry hs
    exact ⟨p, hp, fun k hk => (hall k hk).2⟩

/-- After any calls of a port and of the memory behind it, with a buffer of any size, the two
agree on which request is to be tried again. -/
theorem run_retries {name memoryName : String} {clock : Clock} {latency buffer size : Nat} {calls : List Call}
    (hrun : (start name memoryName clock latency buffer size >>= run calls).result = .ok l) :
    l.Retries (calls.filterMap (·.sent?)) := by
  rw [Sim.result_bind] at hrun
  obtain ⟨l₀, h₀, hrun⟩ := Sim.bind_eq_ok.mp hrun
  exact ((agrees_start h₀).run hrun).retries

/-- The theorem at a read that is refused, waits over a cycle without room and is accepted
after the next one, and at a writeback that a full buffer does not stop. -/
theorem run_retries_of_full :
    ∃ l, (start "cache.mem_side" "mem" ⟨10⟩ 2 1 256 >>= run [.send (.read 64 2 0), .send (.read 128 1 1), .cycle 1,
        .takeRetry, .cycle 2, .takeRetry, .send (.writeback 128 [7, 8]), .takeResponse, .send (.read 64 1 2)]).result =
          .ok l ∧
      l.Retries [.read 64 2 0, .read 128 1 1, .writeback 128 [7, 8], .read 64 1 2] :=
  (Sim.exists_eq_ok (by rfl)).imp fun _ h => ⟨h, run_retries h⟩

end MemSidePort

end CacheSim
