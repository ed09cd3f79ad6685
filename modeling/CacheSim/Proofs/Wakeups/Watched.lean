import CacheSim.Proofs.Port

/-!
# The record of a port

A requestor with a record of what passes between it and its port: refused
requests, answers that it takes or hands back, and signals.  The record alone
tells whether a signal is owed (`owes`) and whether the port holds an answer
(`holds`), and whether every signal came when it should (`Orderly`).

A call leaves a port as it was, refuses a request on it, or gives the signal
that it owes, possibly after an answer (`PortStep`).  Whatever it does, the port
agrees with its record, and a signal that it owes waits for the answer that it
holds or for the cache (`PortStep.vigilant`).
-/

namespace CacheSim

/-- What passes between a port and its requestor. -/
inductive PortEvent where
  /-- A request of the requestor was refused. -/
  | refused
  /-- The requestor took an answer. -/
  | taken
  /-- The requestor handed an answer back. -/
  | returned
  /-- The requestor was told to repeat a refused request. -/
  | signalled
  deriving DecidableEq, Inhabited

/-! Records have the last event in front. -/

namespace PortEvent

/-- A request was refused since the last signal. -/
def owes : List PortEvent → Bool
  | [] | signalled :: _ => false
  | refused :: _ => true
  | taken :: log | returned :: log => owes log

/-- The last answer was handed back. -/
def holds : List PortEvent → Bool
  | [] | taken :: _ => false
  | returned :: _ => true
  | refused :: log | signalled :: log => holds log

/-- Every signal was owed, and was given while no answer was held. -/
def Orderly : List PortEvent → Prop
  | [] => True
  | signalled :: log => owes log ∧ ¬holds log ∧ Orderly log
  | _ :: log => Orderly log

/-- The number of signals. -/
def signals (log : List PortEvent) : Nat :=
  log.count signalled

/-- The number of groups of refusals: those between one signal and the next. -/
def groups : List PortEvent → Nat
  | [] => 0
  | refused :: log => groups log + (!owes log).toNat
  | _ :: log => groups log

/-- Every group of refusals has one signal, but for the last one as long as its
signal is owed. -/
theorem Orderly.groups_eq {log : List PortEvent} (h : Orderly log) :
    groups log = signals log + (owes log).toNat := by
  induction log with
  | nil => rfl
  | cons event log ih =>
    cases event with
    | refused =>
      have ih := ih h
      cases ho : owes log <;> simp_all [groups, signals, owes]
    | taken => simpa [groups, signals, owes] using ih h
    | returned => simpa [groups, signals, owes] using ih h
    | signalled =>
      obtain ⟨ho, -, h⟩ := h
      simpa [groups, signals, owes, ho] using ih h

end PortEvent

/-- A requestor with a record of what passes between it and its port. -/
structure Watched (ρ : Type) where
  peer : ρ
  /-- What passed, the last event in front. -/
  log : List PortEvent := []

/-- The record after something else passed. -/
def Watched.noting {ρ : Type} (w : Watched ρ) (event : PortEvent) : Watched ρ :=
  { w with log := event :: w.log }

/-- What a requestor does with an answer is noted. -/
def Handshake.event : Handshake → PortEvent
  | accepted => .taken
  | refused _ => .returned

variable {ρ : Type} [ResponseReceiver ρ]

instance : ResponseReceiver (Watched ρ) where
  receive w p := do
    let (handshake, peer) ← ResponseReceiver.receive w.peer p
    return (handshake, { w with peer }.noting handshake.event)
  retry w := { w with peer := ResponseReceiver.retry w.peer }.noting .signalled
  rangesChanged w := { w with peer := ResponseReceiver.rangesChanged w.peer }

namespace CpuSidePort

open PortEvent

section Signals

variable {port : CpuSidePort ρ} {p : Packet}

/-- The port after it gave the signal that it owes, unless it holds an answer. -/
def signal (port : CpuSidePort ρ) : CpuSidePort ρ :=
  if port.needsRetry && port.parked.isNone then
    { port with needsRetry := false, peer := ResponseReceiver.retry port.peer }
  else port

@[simp] theorem result_trySendRetry_eq_signal (port : CpuSidePort ρ) :
    port.trySendRetry.result = .ok port.signal := by
  unfold trySendRetry signal
  split <;> simp

/-- A signal that is still owed waits for the answer that the port holds. -/
theorem parked_of_needsRetry_signal (h : port.signal.needsRetry) : port.signal.parked.isSome := by
  unfold signal at h ⊢
  split at h
  · cases h
  · rename_i hn
    rw [if_neg hn]
    cases hp : port.parked with
    | none => simp [h, hp] at hn
    | some p => rfl

end Signals

variable {port sent : CpuSidePort (Watched ρ)} {p : Packet}

/-- The port of a requestor that is told a refusal. -/
def refusing (port : CpuSidePort (Watched ρ)) : CpuSidePort (Watched ρ) :=
  { port with needsRetry := true, peer := port.peer.noting .refused }

/-- The port after an answer: the requestor took it, or the port holds it. -/
theorem log_of_send (h : (port.send p).result = .ok sent) :
    sent.needsRetry = port.needsRetry ∧
      (sent.parked = none ∧ sent.peer.log = taken :: port.peer.log ∨
        sent.parked.isSome ∧ sent.peer.log = returned :: port.peer.log) := by
  have hfree := parked_of_send h
  simp only [send, Sim.result_bind, Sim.result_require, hfree, Option.isNone_none, if_true, Sim.ok_bind,
    Sim.result_debug] at h
  obtain ⟨⟨handshake, peer⟩, hr, h⟩ := Sim.bind_eq_ok.mp h
  simp only [ResponseReceiver.receive, Sim.result_bind, Sim.result_pure] at hr
  obtain ⟨⟨hs, r⟩, -, hr⟩ := Sim.bind_eq_ok.mp hr
  obtain ⟨rfl, rfl⟩ := Prod.mk.inj (Except.ok.inj hr)
  cases hs with
  | accepted =>
    obtain rfl := Except.ok.inj h
    exact ⟨rfl, .inl ⟨rfl, rfl⟩⟩
  | refused q =>
    obtain rfl := Except.ok.inj h
    exact ⟨rfl, .inr ⟨rfl, rfl⟩⟩

/-- A port that agrees with its record. -/
structure Matched (port : CpuSidePort (Watched ρ)) : Prop where
  needsRetry : port.needsRetry = owes port.peer.log
  parked : port.parked.isSome = holds port.peer.log
  orderly : Orderly port.peer.log

/-- An answer is noted.  What the port held before does not matter, since a held
answer is sent again with nothing in its place. -/
theorem Matched.send (h : port.Matched) (hsend : (({ port with parked := none } : CpuSidePort _).send p).result = .ok sent) :
    sent.Matched := by
  obtain ⟨hn, ⟨hp, hl⟩ | ⟨hp, hl⟩⟩ := log_of_send hsend
  · exact ⟨by rw [hn, hl]; exact h.needsRetry, by rw [hp, hl]; rfl, by rw [hl]; exact h.orderly⟩
  · exact ⟨by rw [hn, hl]; exact h.needsRetry, by rw [hp, hl]; rfl, by rw [hl]; exact h.orderly⟩

theorem Matched.signal (h : port.Matched) : port.signal.Matched := by
  unfold CpuSidePort.signal
  split
  · rename_i hn
    obtain ⟨hn, hp⟩ := Bool.and_eq_true_iff.mp hn
    have hp : port.parked = none := Option.isNone_iff_eq_none.mp hp
    have hholds : holds port.peer.log = false := by rw [← h.parked, hp]; rfl
    exact ⟨rfl, h.parked, h.needsRetry ▸ hn, by simp [hholds], h.orderly⟩
  · exact h

omit [ResponseReceiver ρ] in
theorem Matched.refusing (h : port.Matched) : port.refusing.Matched :=
  ⟨rfl, h.parked, h.orderly⟩

end CpuSidePort

/-! ## What a call does to a port -/

/-- What a call does to a port, while the cache was busy or not before and
after. -/
inductive PortStep (busy busy' : Prop) (port port' : CpuSidePort (Watched ρ)) : Prop
  /-- The port is as before. -/
  | kept (needsRetry : port'.needsRetry = port.needsRetry) (parked : port'.parked = port.parked)
    (log : port'.peer.log = port.peer.log) (busy_mono : busy → busy')
  /-- A request was refused on the port. -/
  | refused (reason : port.parked.isSome ∨ port.needsRetry ∨ busy) (eq : port' = port.refusing) (busy_iff : busy' ↔ busy)
  /-- The port gave the signal that it owes, if it may. -/
  | notified (eq : port' = port.signal)
  /-- The port sent an answer, and then gave the signal. -/
  | answered {p : Packet} {sent : CpuSidePort (Watched ρ)}
    (send : (({ port with parked := none } : CpuSidePort _).send p).result = .ok sent) (eq : port' = sent.signal)

/-- A port agrees with its record, and a signal that it owes waits for the
answer that it holds or for the cache. -/
structure CpuSidePort.Vigilant (busy : Prop) (port : CpuSidePort (Watched ρ)) : Prop where
  matched : port.Matched
  awaited : port.needsRetry → port.parked.isSome ∨ busy

namespace PortStep

variable {busy busy' : Prop} {port port' : CpuSidePort (Watched ρ)}

theorem vigilant (h : PortStep busy busy' port port') (hv : port.Vigilant busy) : port'.Vigilant busy' := by
  cases h with
  | kept hn hp hl hb =>
    refine ⟨⟨hn ▸ hl ▸ hv.matched.needsRetry, by rw [hp, hl]; exact hv.matched.parked, hl ▸ hv.matched.orderly⟩, ?_⟩
    rw [hn, hp]
    exact fun h => (hv.awaited h).imp_right hb
  | refused reason eq hb =>
    subst eq
    refine ⟨hv.matched.refusing, fun _ => ?_⟩
    rw [hb]
    exact reason.elim .inl fun h => h.elim hv.awaited .inr
  | notified eq =>
    subst eq
    exact ⟨hv.matched.signal, fun h => .inl (CpuSidePort.parked_of_needsRetry_signal h)⟩
  | answered send eq =>
    subst eq
    exact ⟨(hv.matched.send send).signal, fun h => .inl (CpuSidePort.parked_of_needsRetry_signal h)⟩

open PortEvent

/-- As long as a signal is owed, further refusals belong to the same group. -/
theorem groups_eq (h : PortStep busy busy' port port') (hn : port.needsRetry) (hv : port.Matched) :
    groups port'.peer.log = groups port.peer.log := by
  have hsignal : ∀ port : CpuSidePort (Watched ρ), groups port.signal.peer.log = groups port.peer.log := by
    intro port
    unfold CpuSidePort.signal
    split <;> rfl
  cases h with
  | kept _ _ hl _ => rw [hl]
  | refused _ eq _ =>
    have howes : owes port.peer.log = true := hv.needsRetry ▸ hn
    subst eq
    show groups port.peer.log + (!owes port.peer.log).toNat = _
    rw [howes]
    rfl
  | notified eq => rw [eq, hsignal]
  | answered send eq =>
    rw [eq, hsignal]
    obtain ⟨-, ⟨-, hl⟩ | ⟨-, hl⟩⟩ := CpuSidePort.log_of_send send <;> rw [hl] <;> rfl

end PortStep

end CacheSim
