import CacheSim.Proofs.Requestor.Observed
import Mathlib.Data.List.Forall2
import Mathlib.Logic.Relation

/-!
# A script is played in rounds

All attempts to send the request of one access make a round: the first attempt
offers the request of the access, and after a refusal what was handed back is
offered again, until it is accepted (`Round`).  Whatever the receiver does, the
attempts of a requestor are one round for every completed access in the order of
the script, and one for the outstanding access, if there is one
(`ObservedRequestor.InRounds`).  Every call keeps this (`Kept.step`).

* `ObservedRequestor.run_plays_script`: what holds after any calls that do not
  fault;
* `ObservedRequestor.again_before_signal`: a signal that comes too early, while
  nothing is refused, counts for the next refusal.
-/

namespace CacheSim

/-- The attempts to send a request, the first of them at `issued` and the last one
at a tick and with an answer. -/
inductive Round (request : Packet) (issued : Tick) : List Attempt → Tick → Handshake → Prop
  | first (answer : Handshake) : Round request issued [⟨issued, request, false, answer⟩] issued answer
  | again {round : List Attempt} {tick : Tick} {packet : Packet}
    (h : Round request issued round tick (.refused packet)) (later : Tick) (answer : Handshake) :
    Round request issued (round ++ [⟨later, packet, true, answer⟩]) later answer

/-- The round of the outstanding access, and the packet that is held after it: the
one that was handed back, if the last attempt was refused. -/
inductive Underway (id : Nat) : Option Outstanding → Option Packet → List Attempt → Prop
  | none : Underway id none none []
  | refused {access : Access} {issued tick : Tick} {packet : Packet} {round : List Attempt}
    (h : Round (access.toPacket id) issued round tick (.refused packet)) :
    Underway id (some ⟨access, issued, none⟩) (some packet) round
  | accepted {access : Access} {issued tick : Tick} {round : List Attempt}
    (h : Round (access.toPacket id) issued round tick .accepted) :
    Underway id (some ⟨access, issued, some tick⟩) none round

/-- The fields of a requestor are those of a turn. -/
theorem Underway.exists_at {r : ScriptedRequestor} {round : List Attempt} {id : Nat}
    (h : Underway id r.outstanding r.refused round) : ∃ turn, r.At turn := by
  generalize hout : r.outstanding = out at h
  generalize hrefused : r.refused = held at h
  cases h with
  | none => exact ⟨.free, hout, hrefused⟩
  | refused h => exact ⟨.refused _ _ _, hout, hrefused⟩
  | accepted h => exact ⟨.accepted _ _ _, hout, hrefused⟩

/-- The answer to a request that was sent ends its round or leaves it open. -/
theorem ScriptedRequestor.Sending.underway {r : ScriptedRequestor} {access : Access} {issued : Tick}
    {round : List Attempt} {answer : Handshake} (h : r.Sending access issued)
    (hround : Round (access.toPacket r.id) issued round r.now answer) :
    Underway r.id (r.concluded answer).outstanding (r.concluded answer).refused round := by
  have hat := h.concluded answer
  rw [hat.outstanding, hat.refused]
  cases answer with
  | accepted => exact .accepted hround
  | refused packet => exact .refused hround

namespace ObservedRequestor

open RequestorEvent

/-- The attempts are rounds: one for every completed access, in order, and one for
the outstanding access.  Together with those to come, these accesses are the script. -/
structure InRounds (r : ScriptedRequestor) (script : List Access) (log : List RequestorEvent) : Prop where
  accesses : r.accesses = script
  rounds : ∃ rounds last, attempts log = rounds.flatten ++ last ∧
    List.Forall₂ (fun c round => Round (c.access.toPacket r.id) c.issued round c.accepted .accepted)
      r.completions rounds ∧
    Underway r.id r.outstanding r.refused last
  held : holds log = r.refused.isSome

/-- What every call keeps. -/
structure Kept (script : Script) (id : Nat) (s : ObservedRequestor) : Prop where
  id_eq : s.requestor.id = id
  now : s.requestor.now = s.time
  inRounds : InRounds s.requestor script.accesses s.log
  remembers : Remembers s.mailbox script.refuseResponses.toNat s.log

variable {s t : ObservedRequestor} {script : Script} {id : Nat} {accesses : List Access}
  {log : List RequestorEvent} {r r' : ScriptedRequestor} {m : Mailbox} {offer : Offer}

theorem kept_start (name : String) (id : Nat) (clock : Clock) (script : Script) :
    Kept script id (start name id clock script) :=
  ⟨rfl, (Nat.zero_mul _).symm, ⟨rfl, ⟨[], [], rfl, .nil, .none⟩, rfl⟩, remembers_mailboxFor name script⟩

/-! ## Reading the mail -/

/-- A response completes the outstanding access, which ends its round. -/
theorem InRounds.receive {p : Packet} (h : InRounds r accesses log) (hr : (r.receive p).result = .ok r') :
    InRounds r' accesses log := by
  obtain ⟨rounds, last, hattempts, hcompletions, hlast⟩ := h.rounds
  obtain ⟨turn, hat⟩ := hlast.exists_at
  obtain ⟨access, issued, accepted, data, rfl, -, rfl⟩ := hat.receive hr
  rw [hat.outstanding, hat.refused] at hlast
  cases hlast with
  | accepted hround =>
    refine ⟨?_, ⟨rounds ++ [last], [], ?_, ?_, ?_⟩, h.held⟩
    · rw [← h.accesses]
      simp [ScriptedRequestor.accesses, ScriptedRequestor.completions, hat.outstanding]
    · simpa using hattempts
    · have hlog : ({ r with outstanding := none, log := ⟨access, issued, accepted, r.now, data⟩ :: r.log } :
          ScriptedRequestor).completions = r.completions ++ [⟨access, issued, accepted, r.now, data⟩] := by
        simp [ScriptedRequestor.completions]
      rw [hlog]
      exact List.rel_append hcompletions (.cons hround .nil)
    · rw [hat.refused]
      exact .none

theorem Kept.cycle {n : Nat} (h : Kept script id s) (ht : (s.perform (.cycle n)).result = .ok t) :
    Kept script id t := by
  simp only [perform, Sim.result_bind] at ht
  obtain ⟨⟨r, m⟩, hread, ht⟩ := Sim.bind_eq_ok.mp ht
  obtain rfl := Except.ok.inj ht
  obtain ⟨rfl, now, hnow, hfold⟩ := ScriptedRequestor.cycle_eq_ok hread
  obtain ⟨hclock, rfl⟩ := Word.mul_eq_ok.mp hnow
  have hkeeps := Sim.foldlM_keeps (I := fun x => x.id = id ∧ x.now = n * s.requestor.clock.period ∧
    x.clock = s.requestor.clock ∧ InRounds x script.accesses s.log) hfold
    ⟨h.id_eq, rfl, rfl, h.inRounds.accesses, h.inRounds.rounds, h.inRounds.held⟩ fun hr ⟨hid, hn, hc, hx⟩ => by
      have hx' := hx.receive hr
      obtain ⟨access, issued, accepted, data, -, rfl⟩ := ScriptedRequestor.receive_eq_ok hr
      exact ⟨hid, hn, hc, hx'⟩
  obtain ⟨hid, hn, hc, hx⟩ := hkeeps
  refine ⟨hid, ?_, ⟨hx.accesses, hx.rounds, hx.held⟩, h.remembers.read n⟩
  show r.now = n * r.clock.period
  rw [hn, hc]

/-! ## Offering a request -/

/-- The requestor offers a request: the attempts before are rounds, the last of which
goes on with this one or begins with it. -/
structure Trying (r : ScriptedRequestor) (script : List Access) (log : List RequestorEvent) (access : Access)
    (issued : Tick) (packet : Packet) (again : Bool) : Prop where
  sending : r.Sending access issued
  accesses : r.accesses = script
  rounds : ∃ rounds last, attempts log = rounds.flatten ++ last ∧
    List.Forall₂ (fun c round => Round (c.access.toPacket r.id) c.issued round c.accepted .accepted)
      r.completions rounds ∧
    ∀ answer, Round (access.toPacket r.id) issued (last ++ [⟨r.now, packet, again, answer⟩]) r.now answer

variable {access : Access} {issued : Tick} {packet : Packet}

/-- A refused request is offered again as it was handed back. -/
theorem InRounds.trying_again (h : InRounds r accesses log) (hat : r.At (.refused access issued packet)) :
    Trying { r with refused := none } accesses log access issued packet true := by
  obtain ⟨rounds, last, hattempts, hcompletions, hlast⟩ := h.rounds
  rw [hat.outstanding, hat.refused] at hlast
  cases hlast with
  | refused hround =>
    exact ⟨⟨hat.outstanding, rfl⟩, h.accesses, rounds, last, hattempts, hcompletions, fun answer =>
      hround.again r.now answer⟩

/-- The next access begins a round. -/
theorem InRounds.trying_first {rest : List Access} (h : InRounds r accesses log) (hat : r.At .free)
    (hrest : r.remaining = access :: rest) :
    Trying { r with remaining := rest, outstanding := some { access, issued := r.now } } accesses log access r.now
      (access.toPacket r.id) false := by
  obtain ⟨rounds, last, hattempts, hcompletions, hlast⟩ := h.rounds
  rw [hat.outstanding, hat.refused] at hlast
  cases hlast with
  | none =>
    refine ⟨⟨rfl, hat.refused⟩, ?_, rounds, [], hattempts, hcompletions, .first⟩
    rw [← h.accesses]
    simp [ScriptedRequestor.accesses, ScriptedRequestor.completions, hat.outstanding, hrest]

/-- The answer to an offer ends the round or leaves it open. -/
theorem Trying.concluded {again : Bool} (h : Trying r accesses log access issued packet again) (answer : Handshake)
    {later : List RequestorEvent}
    (hattempts : attempts later = attempts log ++ [⟨r.now, packet, again, answer⟩])
    (hholds : holds later = (answer != .accepted)) : InRounds (r.concluded answer) accesses later := by
  obtain ⟨rounds, last, hlog, hcompletions, hround⟩ := h.rounds
  have hall : attempts later = rounds.flatten ++ (last ++ [⟨r.now, packet, again, answer⟩]) := by
    rw [hattempts, hlog, List.append_assoc]
  have hlast := h.sending.underway (hround answer)
  cases answer with
  | accepted =>
    refine ⟨?_, ⟨rounds, _, hall, hcompletions, hlast⟩, hholds.trans ?_⟩
    · rw [← h.accesses]
      simp [ScriptedRequestor.accesses, ScriptedRequestor.completions, ScriptedRequestor.concluded,
        h.sending.outstanding]
    · simp [ScriptedRequestor.concluded, h.sending.refused]
  | refused packet => exact ⟨h.accesses, ⟨rounds, _, hall, hcompletions, hlast⟩, hholds⟩

theorem issue_of_none (hnext : s.requestor.next? s.mailbox = none)
    (receiver : Packet → Handshake × List Delivery) : (s.issue receiver).result = .ok s := by
  simp [issue, hnext]

/-- What is offered is sent once, and the requestor concludes from the answer. -/
theorem issue_of_some (hnext : s.requestor.next? s.mailbox = some (offer, r, m))
    (receiver : Packet → Handshake × List Delivery) :
    ∃ t, (s.issue receiver).result = .ok { t with requestor := r.concluded (receiver offer.packet).1 } ∧
      Delivers { s with
        mailbox := m, log := .attempt (s.attempt offer.packet (receiver offer.packet).1) :: s.log } t := by
  obtain ⟨t, ht, hst⟩ := exists_of_deliveries { s with
    mailbox := m, log := .attempt (s.attempt offer.packet (receiver offer.packet).1) :: s.log }
    (receiver offer.packet).2
  refine ⟨t, ?_, hst⟩
  simp [issue, hnext, ScriptedRequestor.issue, ht, ScriptedRequestor.result_conclude]

theorem Kept.exists_at (h : Kept script id s) : ∃ turn, s.requestor.At turn := by
  obtain ⟨rounds, last, -, -, hlast⟩ := h.inRounds.rounds
  exact hlast.exists_at

/-- What is offered goes on with a round or begins one, and a signal is used up by a
request that is offered again. -/
theorem Kept.trying (h : Kept script id s) (hnext : s.requestor.next? s.mailbox = some (offer, r, m)) :
    ∃ access issued, Trying r script.accesses s.log access issued offer.packet s.requestor.refused.isSome ∧
      (r.id = s.requestor.id ∧ r.now = s.requestor.now ∧ r.clock = s.requestor.clock) ∧
      ∀ answer, Remembers m script.refuseResponses.toNat (.attempt (s.attempt offer.packet answer) :: s.log) := by
  obtain ⟨turn, hat⟩ := h.exists_at
  rcases hat.sends hnext with ⟨access, issued, rfl, -, rfl, -, rfl⟩ | ⟨access, rest, rfl, hrest, rfl, rfl, -, rfl⟩
  · have hagain : s.requestor.refused.isSome = true := by rw [hat.refused]; rfl
    refine ⟨access, issued, ?_, ⟨rfl, rfl, rfl⟩, fun answer => h.remembers.attempt_again hagain⟩
    rw [hagain]
    exact h.inRounds.trying_again hat
  · have hagain : s.requestor.refused.isSome = false := by rw [hat.refused]; rfl
    refine ⟨access, s.requestor.now, ?_, ⟨rfl, rfl, rfl⟩, fun answer => h.remembers.attempt ?_ hagain⟩
    · rw [hagain]
      exact h.inRounds.trying_first hat hrest
    · rw [h.inRounds.held, hagain]

/-- An offer is one attempt, and the requestor stays in its rounds. -/
theorem Kept.issue (h : Kept script id s) (hnext : s.requestor.next? s.mailbox = some (offer, r, m))
    (receiver : Packet → Handshake × List Delivery) :
    ∃ t, (s.perform (.issue receiver)).result = .ok t ∧ Kept script id t ∧
      t.requestor = r.concluded (receiver offer.packet).1 ∧
      attempts t.log = attempts s.log ++ [s.attempt offer.packet (receiver offer.packet).1] := by
  obtain ⟨t, ht, hst⟩ := issue_of_some hnext receiver
  obtain ⟨access, issued, htry, ⟨hid, hnow, hclock⟩, hm⟩ := h.trying hnext
  refine ⟨_, ht, ⟨?_, ?_, htry.concluded _ ?_ hst.holds, hst.remembers (hm _)⟩, rfl, hst.attempts⟩
  · rw [ScriptedRequestor.id_concluded, hid, h.id_eq]
  · show (r.concluded _).now = lastCycle t.log * (r.concluded _).clock.period
    rw [ScriptedRequestor.now_concluded, ScriptedRequestor.clock_concluded, hnow, hclock, hst.lastCycle]
    exact h.now
  · rw [hst.attempts, hnow, h.now]
    rfl

theorem Kept.step {c : Call} (h : Kept script id s) (ht : (s.perform c).result = .ok t) : Kept script id t := by
  cases c with
  | cycle n => exact h.cycle ht
  | issue receiver =>
    cases hnext : s.requestor.next? s.mailbox with
    | none => exact Except.ok.inj ((issue_of_none hnext receiver).symm.trans ht) ▸ h
    | some o =>
      obtain ⟨t', ht', hkept, -, -⟩ := h.issue hnext receiver
      exact Except.ok.inj (ht'.symm.trans ht) ▸ hkept
  | deliver d =>
    obtain ⟨t', ht', hst⟩ := s.exists_of_deliver d
    obtain rfl := Except.ok.inj (ht'.symm.trans ht)
    refine ⟨?_, ?_, ?_, hst.remembers h.remembers⟩
    · rw [hst.requestor, h.id_eq]
    · rw [time, hst.requestor, hst.lastCycle]
      exact h.now
    · rw [hst.requestor]
      exact ⟨h.inRounds.accesses, hst.attempts ▸ h.inRounds.rounds, hst.holds.trans h.inRounds.held⟩
  | ask =>
    obtain rfl := Except.ok.inj ht
    exact ⟨h.id_eq, h.now, ⟨h.inRounds.accesses, h.inRounds.rounds, h.inRounds.held⟩, h.remembers.ask⟩

theorem Kept.run {calls : List Call} (h : Kept script id s) (ht : (run calls s).result = .ok t) :
    Kept script id t := by
  induction calls generalizing s with
  | nil => exact Except.ok.inj ht ▸ h
  | cons c rest ih =>
    rw [ObservedRequestor.run, Sim.result_bind] at ht
    obtain ⟨u, hu, ht⟩ := Sim.bind_eq_ok.mp ht
    exact ih (h.step hu) ht

/-! ## From turn to turn -/

/-- A call takes steps from one turn to another. -/
theorem Kept.turns {c : Call} (h : Kept script id s) (ht : (s.perform c).result = .ok t) {turn : Turn}
    (hat : s.requestor.At turn) :
    ∃ turn', t.requestor.At turn' ∧ Relation.ReflTransGen (Turn.Step s.time) turn turn' := by
  cases c with
  | cycle n =>
    simp only [perform, Sim.result_bind] at ht
    obtain ⟨⟨r, m⟩, hread, ht⟩ := Sim.bind_eq_ok.mp ht
    obtain rfl := Except.ok.inj ht
    obtain ⟨-, now, -, hfold⟩ := ScriptedRequestor.cycle_eq_ok hread
    refine Sim.foldlM_keeps (I := fun x => ∃ turn', x.At turn' ∧
      Relation.ReflTransGen (Turn.Step s.time) turn turn') hfold
      ⟨turn, ⟨hat.outstanding, hat.refused⟩, .refl⟩ fun hr ⟨turn', hat', hsteps⟩ => ?_
    obtain ⟨access, issued, tick, data, rfl, hfree, -⟩ := hat'.receive hr
    exact ⟨.free, hfree, hsteps.tail .complete⟩
  | issue receiver =>
    cases hnext : s.requestor.next? s.mailbox with
    | none =>
      obtain rfl := Except.ok.inj ((issue_of_none hnext receiver).symm.trans ht)
      exact ⟨turn, hat, .refl⟩
    | some o =>
      obtain ⟨t', ht', -, hrequestor, -⟩ := h.issue hnext receiver
      obtain rfl := Except.ok.inj (ht'.symm.trans ht)
      obtain ⟨access, issued, hsends, hsending, hnow⟩ := hat.exists_sends hnext
      have hat' := hsending.concluded (receiver o.1.packet).1
      rw [hnow, h.now] at hat'
      rw [h.now] at hsends
      exact ⟨_, hrequestor ▸ hat', .single (.send hsends _)⟩
  | deliver d =>
    obtain ⟨t', ht', hst⟩ := s.exists_of_deliver d
    obtain rfl := Except.ok.inj (ht'.symm.trans ht)
    exact ⟨turn, hst.requestor ▸ hat, .refl⟩
  | ask =>
    obtain rfl := Except.ok.inj ht
    exact ⟨turn, hat, .refl⟩

/-- Whatever calls are made, the outstanding access and the refused request are those of a turn,
and the next call takes steps from it. -/
theorem run_turns {name : String} {clock : Clock} {calls : List Call}
    (hrun : (run calls (start name id clock script)).result = .ok s) :
    ∃ turn, s.requestor.At turn ∧ ∀ c t, (s.perform c).result = .ok t →
      ∃ turn', t.requestor.At turn' ∧ Relation.ReflTransGen (Turn.Step s.time) turn turn' := by
  have h := (kept_start name id clock script).run hrun
  obtain ⟨turn, hat⟩ := h.exists_at
  exact ⟨turn, hat, fun c t ht => h.turns ht hat⟩

/-! ## The script is played -/

/-- What holds of a requestor that was given a script, and of its mailbox. -/
structure PlaysScript (script : Script) (id : Nat) (s : ObservedRequestor) : Prop where
  /-- The completed accesses, the outstanding one and those to come are the script, in order. -/
  accesses : s.requestor.completions.map (·.access) ++ s.requestor.outstanding.toList.map (·.access) ++
    s.requestor.remaining = script.accesses
  /-- Every access was offered in a round of its own: the completed ones from the time at which they
  are said to be issued until the one at which they were accepted, and the outstanding one so far. -/
  rounds : ∃ rounds last, attempts s.log = rounds.flatten ++ last ∧
    List.Forall₂ (fun c round => Round (c.access.toPacket id) c.issued round c.accepted .accepted)
      s.requestor.completions rounds ∧
    Underway id s.requestor.outstanding s.requestor.refused last
  /-- A packet is held if and only if there is an outstanding access that was not accepted. -/
  held : s.requestor.refused.isSome ↔ ∃ o, s.requestor.outstanding = some o ∧ o.accepted = none
  /-- Nothing is offered while an accepted access is not answered, or while a refused packet is held
  and no signal came since one was last offered again. -/
  silent : (∃ o, s.requestor.outstanding = some o ∧ o.accepted.isSome) ∨
    s.requestor.refused.isSome ∧ signalled s.log = false →
    ∀ receiver, (s.perform (.issue receiver)).result = .ok s
  /-- After a signal, the refused packet is offered again as it was handed back. -/
  again : ∀ packet, s.requestor.refused = some packet → signalled s.log →
    ∀ receiver, ∃ t, (s.perform (.issue receiver)).result = .ok t ∧
      attempts t.log = attempts s.log ++ [⟨s.time, packet, true, (receiver packet).1⟩]
  /-- If no access is outstanding, the next one is offered. -/
  first : s.requestor.outstanding = none → ∀ access rest, s.requestor.remaining = access :: rest →
    ∀ receiver, ∃ t, (s.perform (.issue receiver)).result = .ok t ∧ attempts t.log = attempts s.log ++
      [⟨s.time, access.toPacket id, false, (receiver (access.toPacket id)).1⟩]
  /-- If all signals came while a refused packet was held, the one that lets it be offered again came
  after the refusal. -/
  prompted : Prompted s.log → s.requestor.refused.isSome → signalled s.log = signalledSince s.log
  done : s.requestor.isDone ↔ s.requestor.completions.map (·.access) = script.accesses
  /-- The first responses are refused, and no other ones. -/
  responses : ∀ i p answer, (responses s.log)[i]? = some (p, answer) →
    answer = if i < script.refuseResponses.toNat then .refused p else .accepted
  /-- The mailbox asks for a response that was refused since it was last asked. -/
  asks : s.mailbox.answerRefused = refusedSince s.log

theorem Kept.silent (h : Kept script id s)
    (hwaits : (∃ o, s.requestor.outstanding = some o ∧ o.accepted.isSome) ∨
      s.requestor.refused.isSome ∧ signalled s.log = false)
    (receiver : Packet → Handshake × List Delivery) : (s.perform (.issue receiver)).result = .ok s := by
  refine issue_of_none ?_ receiver
  obtain ⟨turn, hat⟩ := h.exists_at
  rw [hat.outstanding, hat.refused] at hwaits
  cases turn with
  | accepted access issued accepted => exact hat.next?_of_accepted _
  | refused access issued packet =>
    have hsignal : signalled s.log = false := by simpa using hwaits
    rw [hat.next?_of_refused, h.remembers.signalled, hsignal]
    rfl
  | free => simp at hwaits

theorem Kept.again {packet : Packet} (h : Kept script id s) (hheld : s.requestor.refused = some packet)
    (hsignal : signalled s.log) (receiver : Packet → Handshake × List Delivery) :
    ∃ t, (s.perform (.issue receiver)).result = .ok t ∧
      attempts t.log = attempts s.log ++ [⟨s.time, packet, true, (receiver packet).1⟩] := by
  obtain ⟨turn, hat⟩ := h.exists_at
  have hturn := hat.refused.symm.trans hheld
  cases turn with
  | refused access issued packet' =>
    obtain rfl := Option.some.inj hturn
    have hnext := hat.next?_of_refused s.mailbox
    rw [h.remembers.signalled, hsignal] at hnext
    obtain ⟨t, ht, -, -, hattempts⟩ := h.issue hnext receiver
    rw [attempt, hheld] at hattempts
    exact ⟨t, ht, hattempts⟩
  | free => cases hturn
  | accepted => cases hturn

theorem Kept.first {access : Access} {rest : List Access} (h : Kept script id s)
    (hout : s.requestor.outstanding = none) (hrest : s.requestor.remaining = access :: rest)
    (receiver : Packet → Handshake × List Delivery) :
    ∃ t, (s.perform (.issue receiver)).result = .ok t ∧ attempts t.log = attempts s.log ++
      [⟨s.time, access.toPacket id, false, (receiver (access.toPacket id)).1⟩] := by
  obtain ⟨turn, hat⟩ := h.exists_at
  have hturn := hat.outstanding.symm.trans hout
  cases turn with
  | free =>
    obtain ⟨t, ht, -, -, hattempts⟩ := h.issue (hat.next?_of_free hrest _) receiver
    rw [attempt, hat.refused, h.id_eq] at hattempts
    exact ⟨t, ht, hattempts⟩
  | refused => cases hturn
  | accepted => cases hturn

theorem Kept.done (h : Kept script id s) :
    s.requestor.isDone ↔ s.requestor.completions.map (·.access) = script.accesses := by
  have haccesses := h.inRounds.accesses
  obtain ⟨turn, hat⟩ := h.exists_at
  rw [ScriptedRequestor.accesses, List.append_assoc] at haccesses
  rw [← haccesses, List.self_eq_append_right, List.append_eq_nil_iff, ScriptedRequestor.isDone, hat.outstanding,
    hat.refused]
  cases turn <;> simp

theorem Kept.playsScript (h : Kept script id s) : PlaysScript script id s where
  accesses := h.inRounds.accesses
  rounds := by
    have hrounds := h.inRounds.rounds
    rwa [h.id_eq] at hrounds
  held := by
    obtain ⟨turn, hat⟩ := h.exists_at
    rw [hat.outstanding, hat.refused]
    cases turn <;> simp
  silent := h.silent
  again _ := h.again
  first hout _ _ := h.first hout
  prompted hp hheld := by
    rw [h.remembers.prompted hp, h.inRounds.held, hheld, Bool.true_and]
  done := h.done
  responses := h.remembers.refused
  asks := h.remembers.answerRefused

/-- A requestor plays its script once and in order, after any calls that do not fault: whatever the
receiver answers, and whenever responses and signals come. -/
theorem run_plays_script {name : String} {clock : Clock} {calls : List Call}
    (hrun : (run calls (start name id clock script)).result = .ok s) : PlaysScript script id s :=
  ((kept_start name id clock script).run hrun).playsScript

/-- A receiver that accepts all requests. -/
def taking (_ : Packet) : Handshake × List Delivery :=
  (.accepted, [])

/-- A receiver that refuses all requests. -/
def refusing (p : Packet) : Handshake × List Delivery :=
  (.refused p, [])

/-- The theorem at a script of two accesses that refuses one response: the first request is refused
twice, the second time by a receiver that gives the next signal at once, and the first response comes
again after it was refused. -/
theorem run_plays_script_of_refusals :
    ∃ s, (run [.cycle 1, .issue refusing, .issue taking, .deliver .signal, .cycle 2,
        .issue fun p => (.refused p, [.signal]), .cycle 3, .issue taking,
        .deliver (.response { Packet.read 64 2 7 with command := .readResp }), .ask,
        .deliver (.response { Packet.read 64 2 7 with command := .readResp }), .cycle 4, .issue taking]
        (start "cpu" 7 ⟨10⟩ ⟨1, [⟨.read, 64, some 2, none⟩, ⟨.write, 0, none, some [5]⟩]⟩)).result = .ok s ∧
      s.requestor.completions.map (fun c => (c.issued, c.accepted, c.responded)) = [(10, 30, 40)] ∧
      (attempts s.log).map (fun a => (a.tick, a.again)) = [(10, false), (20, true), (30, true), (40, false)] ∧
      PlaysScript ⟨1, [⟨.read, 64, some 2, none⟩, ⟨.write, 0, none, some [5]⟩]⟩ 7 s := by
  refine (Sim.exists_eq_ok (by rfl)).imp fun s h => ⟨h, ?_, ?_, run_plays_script h⟩
  · have hlog := congrArg (fun x => x.toOption.map fun s : ObservedRequestor =>
      s.requestor.completions.map fun c => (c.issued, c.accepted, c.responded)) h
    exact Option.some.inj (hlog.symm.trans rfl)
  · have hlog := congrArg (fun x => x.toOption.map fun s : ObservedRequestor =>
      (attempts s.log).map fun a => (a.tick, a.again)) h
    exact Option.some.inj (hlog.symm.trans rfl)

/-- A signal that comes while nothing is refused is kept: the next request that is refused is offered
again although no signal came since. -/
theorem again_before_signal :
    ∃ s, (run [.deliver .signal, .issue refusing]
        (start "cpu" 0 ⟨10⟩ ⟨0, [⟨.read, 64, some 4, none⟩]⟩)).result = .ok s ∧
      s.requestor.refused = some (.read 64 4 0) ∧ signalledSince s.log = false ∧
      ∃ t, (s.perform (.issue taking)).result = .ok t ∧
        attempts t.log = attempts s.log ++ [⟨0, .read 64 4 0, true, .accepted⟩] :=
  ⟨_, rfl, rfl, rfl, _, rfl, rfl⟩

end ObservedRequestor

end CacheSim
