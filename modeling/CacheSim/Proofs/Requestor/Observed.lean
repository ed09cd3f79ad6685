import CacheSim.Proofs.Requestor.Mailbox
import CacheSim.Proofs.Requestor.Scripted

/-!
# A requestor and what is seen of it

A requestor with its mailbox, before any receiver: what it offers is accepted or
refused as the receiver likes, and responses and signals may come at any time,
also while a request is on its way.  `ObservedRequestor` keeps a log of what
passed, and everything that a mailbox remembers is read off this log
(`ObservedRequestor.Remembers`):

* `signalled`: a signal came since a refused request was last offered again;
* `refusedSince`: a response was refused since the mailbox was last asked;
* `responses`: the responses that came, of which the first ones were refused.
-/

namespace CacheSim

/-- One offer of a request. -/
structure Attempt where
  tick : Tick
  packet : Packet
  /-- The request was refused before. -/
  again : Bool
  answer : Handshake
  deriving DecidableEq

/-- What may be put into a mailbox. -/
inductive Delivery where
  | response (p : Packet)
  /-- A refused request can be sent again. -/
  | signal
  | rangeChange

/-- What passed at a requestor and its mailbox. -/
inductive RequestorEvent where
  /-- The requestor read its mail at a clock cycle. -/
  | read (cycle : Nat)
  | attempt (a : Attempt)
  | response (p : Packet) (answer : Handshake)
  | signal
  | rangeChange
  /-- The mailbox was asked whether it refused a response. -/
  | asked
  deriving DecidableEq

namespace RequestorEvent

/-! ## Reading a log, the last event of which is in front -/

/-- The last cycle. -/
def lastCycle : List RequestorEvent → Nat
  | [] => 0
  | .read cycle :: _ => cycle
  | _ :: before => lastCycle before

/-- The attempts in order. -/
def attempts : List RequestorEvent → List Attempt
  | [] => []
  | .attempt a :: before => attempts before ++ [a]
  | _ :: before => attempts before

/-- The responses that came, with their answers, in order. -/
def responses : List RequestorEvent → List (Packet × Handshake)
  | [] => []
  | .response p answer :: before => responses before ++ [(p, answer)]
  | _ :: before => responses before

/-- A response was refused since the mailbox was last asked. -/
def refusedSince : List RequestorEvent → Bool
  | [] => false
  | .asked :: _ => false
  | .response _ (.refused _) :: _ => true
  | _ :: before => refusedSince before

/-- A signal came since a refused request was last offered again. -/
def signalled : List RequestorEvent → Bool
  | [] => false
  | .signal :: _ => true
  | .attempt a :: before => !a.again && signalled before
  | _ :: before => signalled before

/-- A signal came since the last attempt. -/
def signalledSince : List RequestorEvent → Bool
  | [] => false
  | .signal :: _ => true
  | .attempt _ :: _ => false
  | _ :: before => signalledSince before

/-- The last attempt was refused. -/
def holds : List RequestorEvent → Bool
  | [] => false
  | .attempt a :: _ => a.answer != .accepted
  | _ :: before => holds before

/-- Signals came only while the last attempt was a refused one. -/
def Prompted : List RequestorEvent → Prop
  | [] => True
  | .signal :: before => holds before ∧ Prompted before
  | _ :: before => Prompted before

end RequestorEvent

/-- A requestor, its mailbox and the log of what passed, the last event in front. -/
structure ObservedRequestor where
  requestor : ScriptedRequestor
  mailbox : Mailbox
  log : List RequestorEvent := []

namespace ObservedRequestor

open RequestorEvent

/-- A call of a requestor or of its mailbox. -/
inductive Call where
  /-- Time moves to a clock cycle, and the requestor reads its mail. -/
  | cycle (n : Nat)
  /-- The requestor offers its next request, if one is due.  The receiver answers, and
  meanwhile it puts things into the mailbox. -/
  | issue (receiver : Packet → Handshake × List Delivery)
  | deliver (d : Delivery)
  /-- The mailbox is asked whether it refused a response. -/
  | ask

/-- The start of a script. -/
def start (name : String) (id : Nat) (clock : Clock) (script : Script) : ObservedRequestor where
  requestor := .ofScript name id clock script
  mailbox := ScriptedRequestor.mailboxFor name script

/-- The time of the last cycle. -/
def time (s : ObservedRequestor) : Tick :=
  lastCycle s.log * s.requestor.clock.period

/-- Puts something into the mailbox. -/
def deliver (s : ObservedRequestor) : Delivery → Sim ObservedRequestor
  | .response p => do
    let (answer, mailbox) ← s.mailbox.receive p
    return { s with mailbox, log := .response p answer :: s.log }
  | .signal => pure { s with mailbox := s.mailbox.signal, log := .signal :: s.log }
  | .rangeChange =>
    pure { s with mailbox := ResponseReceiver.rangesChanged s.mailbox, log := .rangeChange :: s.log }

/-- The attempt to send a packet now. -/
def attempt (s : ObservedRequestor) (packet : Packet) (answer : Handshake) : Attempt :=
  { tick := s.time, packet, again := s.requestor.refused.isSome, answer }

/-- The requestor offers its next request, if one is due. -/
def issue (s : ObservedRequestor) (receiver : Packet → Handshake × List Delivery) : Sim ObservedRequestor :=
  match s.requestor.next? s.mailbox with
  | none => pure s
  | some (offer, requestor, mailbox) => do
    let (answer, deliveries) := receiver offer.packet
    let log := .attempt (s.attempt offer.packet answer) :: s.log
    let (requestor, t) ← requestor.issue offer fun _ => do
      let t ← deliveries.foldlM deliver { s with mailbox, log }
      return (answer, t)
    return { t with requestor }

/-- Makes a call. -/
def perform (s : ObservedRequestor) : Call → Sim ObservedRequestor
  | .cycle n => do
    let (requestor, mailbox) ← s.requestor.cycle n s.mailbox
    return { requestor, mailbox, log := .read n :: s.log }
  | .issue receiver => s.issue receiver
  | .deliver d => s.deliver d
  | .ask => pure { s with mailbox := s.mailbox.takeAnswerRefused.2, log := .asked :: s.log }

/-- Makes calls in order. -/
def run : List Call → ObservedRequestor → Sim ObservedRequestor
  | [], s => pure s
  | c :: rest, s => do
    let s ← s.perform c
    run rest s

/-! ## What a mailbox remembers -/

/-- A mailbox that was told to refuse a number of responses remembers what passed. -/
structure Remembers (m : Mailbox) (refuse : Nat) (log : List RequestorEvent) : Prop where
  signalled : m.signalled = signalled log
  answerRefused : m.answerRefused = refusedSince log
  left : m.refuse = refuse - (responses log).length
  refused : ∀ i p answer, (responses log)[i]? = some (p, answer) →
    answer = if i < refuse then .refused p else .accepted
  /-- A signal that was prompted came since the last attempt. -/
  prompted : Prompted log → RequestorEvent.signalled log = (holds log && signalledSince log)

variable {m : Mailbox} {refuse : Nat} {log : List RequestorEvent}

theorem remembers_mailboxFor (name : String) (script : Script) :
    Remembers (ScriptedRequestor.mailboxFor name script) script.refuseResponses.toNat [] :=
  ⟨rfl, rfl, rfl, fun i p answer h => by simp [responses] at h, fun _ => rfl⟩

/-- A response is one more, and refused if it is one of the first. -/
theorem Remembers.response (h : Remembers m refuse log) (p : Packet) :
    Remembers (m.respond p).2 refuse (.response p (m.respond p).1 :: log) := by
  have hleft := h.left
  have hnew : (m.respond p).1 = if (responses log).length < refuse then .refused p else .accepted := by
    unfold Mailbox.respond
    split
    · rw [if_pos (by omega)]
    · rw [if_neg (by omega)]
  refine ⟨?_, ?_, ?_, fun i q answer hi => ?_, h.prompted⟩
  · show _ = RequestorEvent.signalled log
    rw [← h.signalled]
    unfold Mailbox.respond
    split <;> rfl
  · unfold Mailbox.respond
    split
    · rfl
    · exact h.answerRefused
  · unfold Mailbox.respond
    rw [responses, List.length_append, List.length_singleton]
    split
    · show m.refuse - 1 = _
      omega
    · show m.refuse = _
      omega
  · rw [responses] at hi
    rcases Nat.lt_trichotomy i (responses log).length with hlt | rfl | hgt
    · rw [List.getElem?_append_left hlt] at hi
      exact h.refused i q answer hi
    · rw [List.getElem?_concat_length] at hi
      obtain ⟨rfl, rfl⟩ := Prod.mk.inj (Option.some.inj hi)
      exact hnew
    · rw [List.getElem?_eq_none (by rw [List.length_append, List.length_singleton]; omega)] at hi
      cases hi

theorem Remembers.signal (h : Remembers m refuse log) : Remembers m.signal refuse (.signal :: log) :=
  ⟨rfl, h.answerRefused, h.left, h.refused, fun hp => by simp [RequestorEvent.signalled, signalledSince, holds, hp.1]⟩

theorem Remembers.rangeChange (h : Remembers m refuse log) :
    Remembers (ResponseReceiver.rangesChanged m) refuse (.rangeChange :: log) :=
  ⟨h.signalled, h.answerRefused, h.left, h.refused, h.prompted⟩

/-- A mailbox that is asked forgets that it refused a response. -/
theorem Remembers.ask (h : Remembers m refuse log) : Remembers m.takeAnswerRefused.2 refuse (.asked :: log) :=
  ⟨h.signalled, rfl, h.left, h.refused, h.prompted⟩

theorem Remembers.read (h : Remembers m refuse log) (cycle : Nat) :
    Remembers m.empty.2 refuse (.read cycle :: log) :=
  ⟨h.signalled, h.answerRefused, h.left, h.refused, h.prompted⟩

/-- A request that is offered for the first time leaves a signal in the mailbox. -/
theorem Remembers.attempt (h : Remembers m refuse log) (hholds : holds log = false) {a : Attempt}
    (ha : a.again = false) : Remembers m refuse (.attempt a :: log) := by
  have hs : RequestorEvent.signalled (.attempt a :: log) = RequestorEvent.signalled log := by
    rw [RequestorEvent.signalled, ha]
    rfl
  refine ⟨hs ▸ h.signalled, h.answerRefused, h.left, h.refused, fun hp => ?_⟩
  have hnone := h.prompted hp
  rw [hholds] at hnone
  rw [hs, hnone]
  exact (Bool.and_false _).symm

/-- A request that is offered again uses up the signal. -/
theorem Remembers.attempt_again (h : Remembers m refuse log) {a : Attempt} (ha : a.again = true) :
    Remembers { m with signalled := false } refuse (.attempt a :: log) := by
  have hs : RequestorEvent.signalled (.attempt a :: log) = false := by
    rw [RequestorEvent.signalled, ha]
    rfl
  exact ⟨hs.symm, h.answerRefused, h.left, h.refused, fun _ => hs.trans (Bool.and_false _).symm⟩

/-! ## What a delivery does -/

/-- Only the mailbox got something. -/
structure Delivers (s t : ObservedRequestor) : Prop where
  requestor : t.requestor = s.requestor
  attempts : attempts t.log = attempts s.log
  holds : holds t.log = holds s.log
  lastCycle : lastCycle t.log = lastCycle s.log
  remembers : ∀ {n}, Remembers s.mailbox n s.log → Remembers t.mailbox n t.log

variable {s t u : ObservedRequestor}

theorem Delivers.refl (s : ObservedRequestor) : Delivers s s :=
  ⟨rfl, rfl, rfl, rfl, fun h => h⟩

theorem Delivers.trans (h : Delivers s t) (h' : Delivers t u) : Delivers s u :=
  ⟨h'.requestor.trans h.requestor, h'.attempts.trans h.attempts, h'.holds.trans h.holds,
    h'.lastCycle.trans h.lastCycle, fun hs => h'.remembers (h.remembers hs)⟩

/-- Everything can be put into a mailbox. -/
theorem exists_of_deliver (s : ObservedRequestor) (d : Delivery) :
    ∃ t, (s.deliver d).result = .ok t ∧ Delivers s t := by
  cases d with
  | response p =>
    have hreceive : (s.mailbox.receive p).result = .ok (s.mailbox.respond p) :=
      LawfulRequestor.result_receive s.mailbox p
    refine ⟨{ s with mailbox := (s.mailbox.respond p).2, log := .response p (s.mailbox.respond p).1 :: s.log }, ?_,
      rfl, rfl, rfl, rfl, fun h => h.response p⟩
    simp [deliver, hreceive]
  | signal => exact ⟨_, rfl, rfl, rfl, rfl, rfl, Remembers.signal⟩
  | rangeChange => exact ⟨_, rfl, rfl, rfl, rfl, rfl, Remembers.rangeChange⟩

theorem exists_of_deliveries (s : ObservedRequestor) (ds : List Delivery) :
    ∃ t, (ds.foldlM deliver s).result = .ok t ∧ Delivers s t := by
  induction ds generalizing s with
  | nil => exact ⟨s, rfl, .refl s⟩
  | cons d ds ih =>
    obtain ⟨t, ht, hst⟩ := s.exists_of_deliver d
    obtain ⟨u, hu, htu⟩ := ih t
    exact ⟨u, by simp [List.foldlM_cons, ht, hu], hst.trans htu⟩

end ObservedRequestor

end CacheSim
