import CacheSim.Proofs.Cache.Driven
import CacheSim.Proofs.EventQueue.Basic
import CacheSim.Proofs.Simulation.Effects
import CacheSim.Proofs.Simulation.Runs

/-!
# Larger LRU caches hit no less

A system with one script drives the store of its cache by the accesses of the
script, whatever the times are (`Simulation.Uses`).  Every phase of a cycle keeps
this, and the requestor that plays the script adds the accesses that are accepted.
So a completed run counts the hits of a store that is driven by the script
(`Simulation.finds_of_completed`), of which a larger LRU store has no less
(`Store.drive_inclusion`).
-/

namespace CacheSim

/-! ## What a requestor does -/

namespace ScriptedRequestor

variable {r r' : ScriptedRequestor} {m m' : Mailbox} {offer : Offer} {cycle : Nat} {script : List Access}

/-- The accesses whose requests were accepted, in order. -/
def accepted (r : ScriptedRequestor) : List Access :=
  r.acceptances.map (·.access)

/-- The requestor plays the script, and keeps a request that was refused as it was. -/
structure Plays (r : ScriptedRequestor) (script : List Access) : Prop where
  accesses : r.accesses = script
  turn : ∃ turn, r.At turn
  packet : ∀ access issued packet, r.At (.refused access issued packet) → packet = access.toPacket r.id

/-- The requestor offers the next access of the script. -/
structure Offering (r : ScriptedRequestor) (script : List Access) (access : Access) (issued : Tick) : Prop where
  sending : r.Sending access issued
  accesses : r.accesses = script

theorem plays_of_free (h : r.At .free) (haccesses : r.accesses = script) : r.Plays script :=
  ⟨haccesses, ⟨_, h⟩, fun _ _ _ h' => by cases h.refused.symm.trans h'.refused⟩

/-- A requestor that reads its mail completes an access that was accepted. -/
theorem Plays.read (h : r.Plays script) (hread : (r.cycle cycle m).result = .ok (r', m')) :
    r'.Plays script ∧ r'.accepted = r.accepted ∧ r'.id = r.id := by
  obtain ⟨-, now, -, hfold⟩ := cycle_eq_ok hread
  have hmoved : Plays { r with now } script := by
    obtain ⟨turn, hat⟩ := h.turn
    exact ⟨h.accesses, ⟨turn, hat.outstanding, hat.refused⟩, fun access issued packet hat' =>
      h.packet access issued packet ⟨hat'.outstanding, hat'.refused⟩⟩
  refine Sim.foldlM_keeps (I := fun x => x.Plays script ∧ x.accepted = r.accepted ∧ x.id = r.id) hfold
    ⟨hmoved, rfl, rfl⟩ ?_
  rintro x y p hreceive ⟨hplays, haccepted, hid⟩
  obtain ⟨turn, hat⟩ := hplays.turn
  obtain ⟨access, issued, tick, data, rfl, hfree, rfl⟩ := hat.receive hreceive
  refine ⟨plays_of_free hfree ?_, ?_, hid⟩
  · rw [← hplays.accesses]
    simp [ScriptedRequestor.accesses, completions, hat.outstanding]
  · rw [← haccepted]
    simp [accepted, acceptances, acceptance?, replies, completions, reply, hat.outstanding]

/-- A requestor that is done has no mail to read, and stays done. -/
theorem isDone_of_cycle (h : r.isDone) (hread : (r.cycle cycle m).result = .ok (r', m')) : r'.isDone := by
  obtain ⟨-, now, -, hfold⟩ := cycle_eq_ok hread
  refine Sim.foldlM_keeps (I := fun x => x.isDone = true) hfold h ?_
  intro x y p hreceive hdone
  obtain ⟨access, issued, tick, data, hout, -⟩ := receive_eq_ok hreceive
  cases hout.symm.trans (at_of_isDone hdone).1.outstanding

theorem next?_of_isDone (h : r.isDone) (m : Mailbox) : r.next? m = none := by
  obtain ⟨hat, hrest⟩ := at_of_isDone h
  exact hat.next?_of_done hrest m

/-- What the requestor offers is the next access of its script. -/
theorem Plays.offers (h : r.Plays script) (hnext : r.next? m = some (offer, r', m')) :
    ∃ access issued, offer = ⟨access.toPacket r'.id⟩ ∧ r'.Offering script access issued ∧
      r'.accepted = r.accepted := by
  obtain ⟨turn, hat⟩ := h.turn
  rcases hat.sends hnext with ⟨access, issued, rfl, -, rfl, hs, -⟩ | ⟨access, rest, rfl, hrest, rfl, rfl, hs, -⟩
  · exact ⟨access, issued, congrArg Offer.mk (h.packet _ _ _ hat), ⟨hs, h.accesses⟩, rfl⟩
  · refine ⟨access, _, rfl, ⟨hs, ?_⟩, ?_⟩
    · rw [← h.accesses]
      simp [ScriptedRequestor.accesses, completions, hat.outstanding, hrest]
    · simp [accepted, acceptances, acceptance?, replies, completions, reply, hat.outstanding]

variable {access : Access} {issued : Tick}

/-- A request that was refused stays the current one. -/
theorem Offering.refused (h : r.Offering script access issued) :
    (r.concluded (.refused (access.toPacket r.id))).Plays script ∧
      (r.concluded (.refused (access.toPacket r.id))).accepted = r.accepted := by
  have hat := h.sending.concluded (.refused (access.toPacket r.id))
  refine ⟨⟨h.accesses, ⟨_, hat⟩, fun access' issued' packet hat' => ?_⟩, rfl⟩
  cases hat'.outstanding.symm.trans hat.outstanding
  exact Option.some.inj (hat'.refused.symm.trans hat.refused)

/-- A request that was accepted is one more. -/
theorem Offering.accepted (h : r.Offering script access issued) :
    (r.concluded .accepted).Plays script ∧ (r.concluded .accepted).accepted = r.accepted ++ [access] := by
  have hat := h.sending.concluded .accepted
  refine ⟨⟨?_, ⟨_, hat⟩, fun _ _ _ hat' => ?_⟩, ?_⟩
  · rw [← h.accesses]
    simp [ScriptedRequestor.accesses, completions, concluded, h.sending.outstanding]
  · cases hat'.refused.symm.trans hat.refused
  · simp [ScriptedRequestor.accepted, acceptances, acceptance?, replies, completions, reply, concluded,
      h.sending.outstanding]

end ScriptedRequestor

/-! ## The phases of a cycle -/

namespace Simulation

/-- Before the requestors `rs` play, the cache has used these blocks but for the one in service. -/
structure Uses (s : Simulation) (store : Store) (rs : List ScriptedRequestor) (blocks : List Nat) : Prop where
  requestors : s.requestors = rs
  cache : s.cache.Drives store s.queue.pending blocks

variable {s t : Simulation} {store : Store} {rs : List ScriptedRequestor} {blocks : List Nat} {id : Nat}

theorem queue_withMailbox (s : Simulation) (id : Nat) (m : Mailbox) : (s.withMailbox id m).queue = s.queue := by
  unfold withMailbox
  split <;> rfl

theorem drives_withMailbox (h : s.cache.Drives store s.queue.pending blocks) (id : Nat) (m : Mailbox) :
    (s.withMailbox id m).cache.Drives store s.queue.pending blocks := by
  unfold withMailbox
  split
  · exact h.of_eq rfl rfl rfl rfl rfl
  · exact h

namespace Uses

/-- Memories that owe the same answers are alike. -/
theorem withMemory (h : s.Uses store rs blocks) {m : TimedMemory} (howed : m.owed = s.memory.owed) :
    (s.withMemory m).Uses store rs blocks := by
  refine ⟨h.requestors, h.cache.of_eq rfl rfl rfl rfl ?_⟩
  show (m.owed ++ _).map _ = (s.memory.owed ++ _).map _
  rw [howed]
  rfl

theorem retryResponse (h : s.Uses store rs blocks) (ht : (s.retryResponse id).result = .ok t) :
    t.Uses store rs blocks := by
  simp only [Simulation.retryResponse, Sim.result_bind, Sim.result_liftM] at ht
  obtain ⟨m, -, ht⟩ := Sim.bind_eq_ok.mp ht
  split at ht
  · simp only [Sim.result_bind, Cache.retryResponse, Sim.result_liftM] at ht
    obtain ⟨cache, hcache, ht⟩ := Sim.bind_eq_ok.mp ht
    obtain ⟨port, -, hcache⟩ := Sim.bind_eq_ok.mp hcache
    obtain ⟨port', -, hcache⟩ := Sim.bind_eq_ok.mp hcache
    obtain rfl := Except.ok.inj hcache
    obtain rfl := Except.ok.inj ht
    have hmailbox := drives_withMailbox h.cache id m.takeAnswerRefused.2
    exact ⟨h.requestors, hmailbox.of_eq rfl rfl rfl rfl rfl⟩
  · obtain rfl := Except.ok.inj ht
    exact h

theorem retryResponses (h : s.Uses store rs blocks) (ht : s.retryResponses.result = .ok t) : t.Uses store rs blocks :=
  Sim.foldlM_keeps (I := fun x => x.Uses store rs blocks) ht h fun hstep h => h.retryResponse hstep

theorem deliver {n : Nat} (h : s.Uses store rs blocks) (ht : (deliver n s).result = .ok t) : t.Uses store rs blocks := by
  induction n generalizing s with
  | zero =>
    obtain rfl := Except.ok.inj ht
    exact h
  | succ n ih =>
    unfold Simulation.deliver TimedMemory.takeResponse at ht
    cases hready : s.memory.ready with
    | nil =>
      rw [hready] at ht
      obtain rfl := Except.ok.inj ht
      exact h
    | cons p ready =>
      simp only [hready, Sim.result_bind] at ht
      obtain ⟨cache, hfill, ht⟩ := Sim.bind_eq_ok.mp ht
      have hfilled : cache.Drives store s.queue.pending blocks := h.cache.fill hready hfill
      exact ih (s := { s with cache }) ⟨h.requestors, hfilled⟩ ht

theorem retryRequest (h : s.Uses store rs blocks) (ht : s.retryRequest.result = .ok t) : t.Uses store rs blocks := by
  unfold Simulation.retryRequest TimedMemory.takeRetry at ht
  dsimp only at ht
  split at ht
  · rw [Sim.result_bind] at ht
    obtain ⟨cache, hcache, ht⟩ := Sim.bind_eq_ok.mp ht
    obtain rfl := Except.ok.inj ht
    obtain rfl := Cache.retryRequest_eq_retried hcache
    have h' := h.withMemory (m := { s.memory with sendRetry := false }) rfl
    exact ⟨h.requestors, h'.cache.of_eq rfl rfl rfl rfl (Lane.awaited_retried _)⟩
  · obtain rfl := Except.ok.inj ht
    exact h

theorem fire {n : Nat} {now : Tick} (h : s.Uses store rs blocks) (ht : (fire now n s).result = .ok t) :
    t.Uses store rs blocks := by
  induction n generalizing s with
  | zero =>
    obtain rfl := Except.ok.inj ht
    exact h
  | succ n ih =>
    unfold Simulation.fire at ht
    cases hpop : s.queue.popDue? now with
    | none =>
      rw [hpop] at ht
      obtain rfl := Except.ok.inj ht
      exact h
    | some x =>
      obtain ⟨tick, event, queue⟩ := x
      simp only [hpop, Sim.result_bind] at ht
      obtain ⟨cache, hfire, ht⟩ := Sim.bind_eq_ok.mp ht
      have hdue := h.cache
      rw [EventQueue.pending_of_popDue? hpop] at hdue
      exact ih (s := { s with cache, queue }) ⟨h.requestors, hdue.fire hfire⟩ ht

end Uses

/-! ## What the requestors add -/

variable {r r' : ScriptedRequestor} {k : Nat} {script : List Access}

/-- A requestor read its mail, and made no offer or one that the cache answered. -/
theorem play_cases (h : (s.play k r).result = .ok (r', t)) :
    ∃ m r₁ m₁, (r.cycle k m).result = .ok (r₁, m₁) ∧
      (r₁.next? m₁ = none ∧ r' = r₁ ∧ t = s.withMailbox r₁.id m₁ ∨
        ∃ offer r₂ m₂ handshake cache queue, r₁.next? m₁ = some (offer, r₂, m₂) ∧
          ((s.withMailbox r₂.id m₂).cache.offer s.queue r₂.id offer.packet).result = .ok (handshake, cache, queue) ∧
          (r₂.conclude handshake).result = .ok r' ∧ t = { s.withMailbox r₂.id m₂ with cache, queue }) := by
  simp only [play, Sim.result_bind, Sim.result_liftM] at h
  obtain ⟨m, -, h⟩ := Sim.bind_eq_ok.mp h
  obtain ⟨⟨r₁, m₁⟩, hread, h⟩ := Sim.bind_eq_ok.mp h
  refine ⟨m, r₁, m₁, hread, ?_⟩
  cases hnext : r₁.next? m₁ with
  | none =>
    simp only [hnext] at h
    obtain ⟨rfl, rfl⟩ := Prod.mk.inj (Except.ok.inj h)
    exact .inl ⟨rfl, rfl, rfl⟩
  | some next =>
    obtain ⟨offer, r₂, m₂⟩ := next
    simp only [hnext, ScriptedRequestor.issue, Sim.result_bind, Sim.result_debug, Sim.ok_bind] at h
    obtain ⟨⟨handshake, w⟩, hsend, h⟩ := Sim.bind_eq_ok.mp h
    obtain ⟨⟨handshake', cache, queue⟩, hoffer, hsend⟩ := Sim.bind_eq_ok.mp hsend
    obtain ⟨rfl, rfl⟩ := Prod.mk.inj (Except.ok.inj hsend)
    obtain ⟨r₃, hconclude, h⟩ := Sim.bind_eq_ok.mp h
    obtain ⟨rfl, rfl⟩ := Prod.mk.inj (Except.ok.inj h)
    rw [queue_withMailbox] at hoffer
    exact .inr ⟨offer, r₂, m₂, handshake', cache, queue, rfl, hoffer, hconclude, rfl⟩

/-- The blocks of the accesses of a requestor that were accepted. -/
def blocksOf (size : Nat) (r : ScriptedRequestor) : List Nat :=
  r.accepted.map (·.block size)

/-- The requestor that plays the script adds the block of an access that is accepted. -/
theorem drives_of_play (h : s.cache.Drives store s.queue.pending (blocksOf store.lineSize r)) (hr : r.Plays script)
    (ht : (s.play k r).result = .ok (r', t)) :
    r'.Plays script ∧ t.cache.Drives store t.queue.pending (blocksOf store.lineSize r') := by
  obtain ⟨m, r₁, m₁, hread, hcases⟩ := play_cases ht
  obtain ⟨hplays, haccepted, -⟩ := hr.read hread
  rcases hcases with ⟨-, rfl, rfl⟩ | ⟨offer, r₂, m₂, handshake, cache, queue, hnext, hoffer, hconclude, rfl⟩
  · refine ⟨hplays, ?_⟩
    rw [queue_withMailbox, blocksOf, haccepted]
    exact drives_withMailbox h _ _
  · obtain ⟨access, issued, rfl, hoffering, haccepted'⟩ := hplays.offers hnext
    have hblocks : blocksOf store.lineSize r = blocksOf store.lineSize r₂ := by
      rw [blocksOf, blocksOf, haccepted', haccepted]
    rw [hblocks] at h
    obtain rfl := Except.ok.inj ((r₂.result_conclude _).symm.trans hconclude)
    rcases (drives_withMailbox h r₂.id m₂).offer hoffer with ⟨rfl, hdrives⟩ | ⟨rfl, hdrives⟩
    · obtain ⟨hplays', hsame⟩ := hoffering.refused
      refine ⟨hplays', ?_⟩
      rw [blocksOf, hsame]
      exact hdrives
    · obtain ⟨hplays', hmore⟩ := hoffering.accepted
      refine ⟨hplays', ?_⟩
      rw [blocksOf, hmore, List.map_append]
      exact hdrives

/-- A requestor that is done adds nothing. -/
theorem drives_of_idle (h : s.cache.Drives store s.queue.pending blocks) (hr : r.isDone)
    (ht : (s.play k r).result = .ok (r', t)) : r'.isDone ∧ t.cache.Drives store t.queue.pending blocks := by
  obtain ⟨m, r₁, m₁, hread, hcases⟩ := play_cases ht
  have hdone := ScriptedRequestor.isDone_of_cycle hr hread
  rcases hcases with ⟨-, rfl, rfl⟩ | ⟨offer, r₂, m₂, handshake, cache, queue, hnext, -⟩
  · refine ⟨hdone, ?_⟩
    rw [queue_withMailbox]
    exact drives_withMailbox h _ _
  · rw [ScriptedRequestor.next?_of_isDone hdone] at hnext
    cases hnext

theorem drives_of_idles {idle idle' : List ScriptedRequestor} (h : s.cache.Drives store s.queue.pending blocks)
    (hidle : ∀ x ∈ idle, x.isDone) (ht : (playAll k idle s).result = .ok (idle', t)) :
    (∀ x ∈ idle', x.isDone) ∧ t.cache.Drives store t.queue.pending blocks := by
  induction idle generalizing s idle' with
  | nil =>
    obtain ⟨rfl, rfl⟩ := Prod.mk.inj (Except.ok.inj ht)
    exact ⟨hidle, h⟩
  | cons r idle ih =>
    simp only [playAll, Sim.result_bind] at ht
    obtain ⟨⟨r', v⟩, hplay, ht⟩ := Sim.bind_eq_ok.mp ht
    obtain ⟨⟨rest, w⟩, hplayAll, ht⟩ := Sim.bind_eq_ok.mp ht
    obtain ⟨rfl, rfl⟩ := Prod.mk.inj (Except.ok.inj ht)
    obtain ⟨hr, hidle⟩ := List.forall_mem_cons.mp hidle
    obtain ⟨hr', hdrives⟩ := drives_of_idle h hr hplay
    obtain ⟨hrest, hdrives⟩ := ih hdrives hidle hplayAll
    exact ⟨List.forall_mem_cons.mpr ⟨hr', hrest⟩, hdrives⟩

/-! ## Whole runs -/

/-- The first requestor plays the script, no other one does anything, and the cache has used the
blocks of the accesses that were accepted. -/
def Lone (s : Simulation) (store : Store) (script : List Access) : Prop :=
  ∃ r idle, r.Plays script ∧ (∀ x ∈ idle, x.isDone) ∧ s.Uses store (r :: idle) (blocksOf store.lineSize r)

/-- A cycle keeps what is known of a system with one script. -/
theorem Lone.cycle (h : s.Lone store script) (ht : (s.cycle k).result = .ok t) : t.Lone store script := by
  obtain ⟨r, idle, hplays, hidle, huses⟩ := h
  simp only [Simulation.cycle, Sim.result_bind, Sim.result_liftM, Sim.result_trace, Sim.ok_bind] at ht
  obtain ⟨now, -, ht⟩ := Sim.bind_eq_ok.mp ht
  obtain ⟨queue, hqueue, ht⟩ := Sim.bind_eq_ok.mp ht
  obtain ⟨-, -, rfl⟩ := EventQueue.advanceTo_eq_ok_iff.mp hqueue
  obtain ⟨memory, hmemory, ht⟩ := Sim.bind_eq_ok.mp ht
  obtain ⟨s₁, hs₁, ht⟩ := Sim.bind_eq_ok.mp ht
  obtain ⟨s₂, hs₂, ht⟩ := Sim.bind_eq_ok.mp ht
  obtain ⟨s₃, hs₃, ht⟩ := Sim.bind_eq_ok.mp ht
  obtain ⟨s₄, hs₄, ht⟩ := Sim.bind_eq_ok.mp ht
  obtain ⟨⟨requestors, s₅⟩, hplayAll, ht⟩ := Sim.bind_eq_ok.mp ht
  obtain rfl := Except.ok.inj ht
  have hadvanced : Uses { s with queue := { s.queue with now } } store (r :: idle) (blocksOf store.lineSize r) :=
    ⟨huses.requestors, huses.cache⟩
  have howed : memory.owed = s.memory.owed := by
    obtain ⟨pending, send, rfl⟩ := TimedMemory.exists_of_cycle hmemory
    exact TimedMemory.owed_advanced s.memory _
  have hserved := ((((hadvanced.withMemory howed).retryResponses hs₁).deliver hs₂).retryRequest hs₃).fire hs₄
  rw [hserved.requestors] at hplayAll
  simp only [playAll, Sim.result_bind] at hplayAll
  obtain ⟨⟨r', v⟩, hplay, hrest⟩ := Sim.bind_eq_ok.mp hplayAll
  obtain ⟨⟨idle', w⟩, hidles, hrest⟩ := Sim.bind_eq_ok.mp hrest
  obtain ⟨rfl, rfl⟩ := Prod.mk.inj (Except.ok.inj hrest)
  obtain ⟨hplays', hdrives⟩ := drives_of_play hserved.cache hplays hplay
  obtain ⟨hidle', hdrives⟩ := drives_of_idles hdrives hidle hidles
  exact ⟨r', idle', hplays', hidle', rfl, hdrives⟩

theorem Lone.step (h : s.Lone store script) (ht : s.step.result = .ok t) : t.Lone store script := by
  simp only [Simulation.step, Sim.result_bind] at ht
  obtain ⟨v, hcycle, ht⟩ := Sim.bind_eq_ok.mp ht
  obtain rfl := Except.ok.inj ht
  obtain ⟨r, idle, hplays, hidle, huses⟩ := h.cycle hcycle
  exact ⟨r, idle, hplays, hidle, huses.requestors, huses.cache⟩

/-- A system that is done has used the blocks of the whole script, and has counted those that were resident. -/
theorem Lone.finds_of_isDone (h : s.Lone store script) (hdone : s.isDone) :
    store.Finds (script.map (·.block store.lineSize)) s.cache.stats.hits s.cache.store := by
  obtain ⟨r, idle, hplays, -, hrequestors, -, past, current, hblocks, hfinds, hserving⟩ := h
  have hr : r.isDone := isDone_of_mem hdone (by rw [hrequestors]; exact List.mem_cons_self ..)
  have hat := (ScriptedRequestor.at_of_isDone hr).1
  have haccepted : r.accepted = script := by
    rw [← hplays.accesses, ← ScriptedRequestor.completions_of_isDone hr, ← ScriptedRequestor.map_access_replies]
    simp [ScriptedRequestor.accepted, ScriptedRequestor.acceptances, ScriptedRequestor.acceptance?, hat.outstanding]
  have hfree := free_of_isDone hdone
  cases hserving with
  | idle =>
    rw [blocksOf, haccepted, Option.toList_none, List.append_nil] at hblocks
    rwa [hblocks]
  | access _ hs => simp [hs] at hfree
  | fetch hs => simp [hs] at hfree

/-! ## From configurations to hits -/

variable {config : Config} {trace : Trace} {bytes : Chunks} {limit : Nat} {summary : Summary}

/-- What a run of the system of a configuration and a trace tells that is completed in at most
`limit` cycles.  The memory holds some bytes first. -/
def completed (config : Config) (trace : Trace) (bytes : Chunks) (limit : Nat) : Sim (Option Summary) := do
  match ← build config trace with
  | .error _ => return none
  | .ok s =>
    let (outcome, _) ← (s.loaded bytes).run limit
    return outcome.toOption

/-- A system that was built is the one before the first cycle, around a new store. -/
theorem build_eq_initial (h : (build config trace).result = .ok (.ok s)) :
    config.Checked ∧ ∃ store, Store.ofGeometry? config.layout (.seeded config.seed.toNat) = .ok store ∧
      s = initial config trace store .empty := by
  unfold build at h
  cases hcheck : check config trace with
  | error e =>
    rw [hcheck] at h
    cases h
  | ok _ =>
    simp only [hcheck, Sim.result_bind] at h
    obtain ⟨s, hs, h⟩ := Sim.bind_eq_ok.mp h
    obtain rfl := Except.ok.inj (Except.ok.inj h)
    have hc : config.Checked := by
      cases hv : config.validate with
      | error e =>
        simp only [check, hv, Except.mapError, bind, Except.bind] at hcheck
        cases hcheck
      | ok u => exact Config.checked_of_validate hv
    simp only [assemble, Sim.result_bind, Sim.result_liftM, Sim.result_info, Sim.ok_bind, hc.geometry_eq_ok] at hs
    obtain ⟨clock, hclock, hs⟩ := Sim.bind_eq_ok.mp hs
    obtain ⟨memory, hmemory, hs⟩ := Sim.bind_eq_ok.mp hs
    obtain ⟨store, hstore, hs⟩ := Sim.bind_eq_ok.mp hs
    obtain ⟨cache, hcache, hs⟩ := Sim.bind_eq_ok.mp hs
    obtain rfl := Except.ok.inj hs
    obtain ⟨-, rfl⟩ := Cache.build_eq_ok hcache
    obtain ⟨latency, hlatency, hmemory⟩ := Sim.bind_eq_ok.mp hmemory
    obtain rfl := Except.ok.inj hmemory
    obtain ⟨-, rfl⟩ := Word.mul_eq_ok.mp hlatency
    obtain rfl : (⟨config.clockPeriod.toNat⟩ : Clock) = clock := by
      rw [Clock.ofPeriod?, if_neg (Nat.ne_of_gt hc.period)] at hclock
      exact Except.ok.inj hclock
    exact ⟨hc, store, hstore, rfl⟩

/-- Before the first cycle, no access was accepted. -/
theorem lone_initial {script : Script} (hc : config.Checked) (htrace : trace.scripts = [script])
    (hsize : config.layout.lineSize = store.lineSize) (hfinds : store.Finds [] 0 store) (bytes : Chunks) :
    (initial config trace store bytes).Lone store script.accesses := by
  obtain ⟨n, hn⟩ : ∃ n, config.cache.ports.toNat = n + 1 := Nat.exists_eq_succ_of_ne_zero (Nat.ne_of_gt hc.ports)
  have hfirst : trace.script 0 = script := by
    rw [Trace.script, htrace]
    rfl
  have hnone : ∀ id, (trace.script (id + 1)).accesses = [] := fun id => by
    rw [Trace.script, htrace]
    rfl
  let requestor (id : Nat) : ScriptedRequestor :=
    .ofScript (requestorName id) id ⟨config.clockPeriod.toNat⟩ (trace.script id)
  have hrequestors : (List.range config.cache.ports.toNat).map requestor =
      requestor 0 :: (List.range n).map fun id => requestor (id + 1) := by
    rw [hn, List.range_succ_eq_map, List.map_cons, List.map_map]
    rfl
  refine ⟨requestor 0, _, ScriptedRequestor.plays_of_free ⟨rfl, rfl⟩ (congrArg Script.accesses hfirst), ?_, hrequestors, hsize, [],
    none, rfl, hfinds, .idle rfl rfl rfl⟩
  intro x hx
  obtain ⟨id, -, rfl⟩ := List.mem_map.mp hx
  simp [requestor, ScriptedRequestor.isDone, ScriptedRequestor.ofScript, hnone]

/-- A completed run counts the accesses that find their block in an LRU store driven by the script. -/
theorem finds_of_completed {script : Script} (hp : config.cache.effectivePolicy = .lru)
    (hk : config.cache.kind ≠ .directMapped) (htrace : trace.scripts = [script])
    (h : (completed config trace bytes limit).result = .ok (some summary)) :
    ∃ store t, Store.ofGeometry? config.layout (.seeded config.seed.toNat) = .ok store ∧
      store.Finds (script.accesses.map (·.block config.lineSize.toNat)) summary.cache.hits t := by
  simp only [completed, Sim.result_bind] at h
  obtain ⟨built, hbuild, h⟩ := Sim.bind_eq_ok.mp h
  cases built with
  | error e => cases h
  | ok s =>
    obtain ⟨hc, store, hstore, rfl⟩ := build_eq_initial hbuild
    have hsize : store.lineSize = config.lineSize.toNat := (Store.valid_ofGeometry? hstore).2.1
    have hlone := lone_initial hc htrace hsize.symm (Store.finds_nil hstore hp hk) bytes
    simp only [run, advance, Sim.result_bind] at h
    obtain ⟨⟨outcome, v⟩, hrun, h⟩ := Sim.bind_eq_ok.mp h
    obtain ⟨t, hiterate, hrun⟩ := Sim.bind_eq_ok.mp hrun
    have hend : t.Lone store script.accesses :=
      Sim.iterate_keeps (I := fun x => x.Lone store script.accesses) hiterate hlone fun hstep h => h.step hstep
    split at hrun
    · rename_i hdone
      obtain ⟨rfl, rfl⟩ := Prod.mk.inj (Except.ok.inj hrun)
      obtain rfl := Option.some.inj (Except.ok.inj h)
      have hfinds := hend.finds_of_isDone hdone
      rw [hsize] at hfinds
      exact ⟨store, _, hstore, hfinds⟩
    · obtain ⟨rfl, rfl⟩ := Prod.mk.inj (Except.ok.inj hrun)
      cases h

end Simulation

/-! ## Larger caches -/

/-- The configuration of a cache of another size. -/
def Config.resized (c : Config) (size : Size) : Config :=
  { c with cache := { c.cache with size } }

theorem count_le_of_forall₂ {found found' : List Bool} (h : List.Forall₂ (fun x y => x = true → y = true) found found') :
    found.count true ≤ found'.count true := by
  induction h with
  | nil => exact Nat.le_refl _
  | @cons x y found found' hxy _ ih =>
    cases x with
    | false =>
      rw [List.count_cons_of_ne (by decide)]
      exact Nat.le_trans ih List.count_le_count_cons
    | true =>
      rw [hxy rfl, List.count_cons_self, List.count_cons_self]
      exact Nat.succ_le_succ ih

/-- The layout of a fully associative cache is enlarged with its size. -/
theorem Config.enlarged_resized {c : Config} {size : Size} (hk : c.cache.kind = .fullyAssociative)
    (hsize : c.cache.size.bytes ≤ size.bytes) : c.layout.Enlarged (c.resized size).layout :=
  .full hk hk (Nat.div_le_div_right (UInt64.le_iff_toNat_le.mp hsize))

/-- A larger LRU store holds all that a smaller one holds which was driven by the same accesses,
and no access hits the smaller one only.  So a run with one script never counts fewer hits if its
fully associative cache is enlarged. -/
theorem larger_lru_hits :
    (∀ (g g' : Geometry) (gen gen' : Generator) (s s' : Store), g.policy = .lru → g'.policy = .lru → g.Enlarged g' →
        Store.ofGeometry? g gen = .ok s → Store.ofGeometry? g' gen' = .ok s' → ∀ xs : List (Nat × Bytes),
          ∃ found t found' t', (Store.drive xs s).result = .ok (found, t) ∧
            (Store.drive xs s').result = .ok (found', t') ∧
            List.Forall₂ (fun x y => x = true → y = true) found found' ∧
            ∀ b, (t.lookup b).isSome → (t'.lookup b).isSome) ∧
      ∀ (config : Config) (size : Size) (trace : Trace) (script : Script) (bytes bytes' : Chunks) (limit limit' : Nat)
        (summary summary' : Summary), config.cache.kind = .fullyAssociative → config.cache.optimized →
          config.cache.size.bytes ≤ size.bytes → trace.scripts = [script] →
          (Simulation.completed config trace bytes limit).result = .ok (some summary) →
          (Simulation.completed (config.resized size) trace bytes' limit').result = .ok (some summary') →
            summary.cache.hits ≤ summary'.cache.hits := by
  refine ⟨fun g g' gen gen' s s' hp hp' hg h h' xs => Store.drive_inclusion hp hp' hg h h' xs, ?_⟩
  intro config size trace script bytes bytes' limit limit' summary summary' hk ho hsize htrace h h'
  have hlru : config.cache.effectivePolicy = .lru := by simp [CacheConfig.effectivePolicy, hk, ho]
  have hlru' : (config.resized size).cache.effectivePolicy = .lru := hlru
  have hkind : config.cache.kind ≠ .directMapped := by simp [hk]
  obtain ⟨store, t, hstore, hfinds⟩ := Simulation.finds_of_completed hlru hkind htrace h
  obtain ⟨store', t', hstore', hfinds'⟩ := Simulation.finds_of_completed hlru' hkind htrace h'
  obtain ⟨hplace, hroom⟩ := Store.room_le_of_enlarged (Config.enlarged_resized hk hsize) hstore hstore'
  rw [hfinds.hits, hfinds'.hits, hplace]
  exact count_le_of_forall₂ (hits_of_le hroom _ _)

/-- Three blocks are read, and the first one again. -/
def Simulation.loopScript : Script where
  accesses := [⟨.read, 0, some 4, none⟩, ⟨.read, 4, some 4, none⟩, ⟨.read, 8, some 4, none⟩, ⟨.read, 0, some 4, none⟩]

/-- The theorem at loops over three blocks, for which two lines are too few. -/
theorem larger_lru_hits_of_loop :
    let xs : List (Nat × Bytes) := [(0, [1, 2, 3, 4]), (8, [0, 0, 0, 0]), (16, [5, 6, 7, 8]), (0, [1, 2, 3, 4])]
    (∃ s s', Store.ofGeometry? ⟨.setAssociative, 4, 4, 2, 1, .lru⟩ (.seeded 0) = .ok s ∧
        Store.ofGeometry? ⟨.setAssociative, 4, 6, 3, 1, .lru⟩ (.seeded 0) = .ok s' ∧
        ∃ found t found' t', (Store.drive xs s).result = .ok (found, t) ∧
          (Store.drive xs s').result = .ok (found', t') ∧
          List.Forall₂ (fun x y => x = true → y = true) found found' ∧
          ∀ b, (t.lookup b).isSome → (t'.lookup b).isSome) ∧
      ∃ summary summary',
        (Simulation.completed Simulation.smallConfig ⟨[Simulation.loopScript]⟩ .empty 40).result = .ok (some summary) ∧
        (Simulation.completed (Simulation.smallConfig.resized ⟨12⟩) ⟨[Simulation.loopScript]⟩ .empty 40).result =
          .ok (some summary') ∧
        summary.cache.hits ≤ summary'.cache.hits := by
  intro xs
  have hstores : ∃ s s', Store.ofGeometry? ⟨.setAssociative, 4, 4, 2, 1, .lru⟩ (.seeded 0) = .ok s ∧
      Store.ofGeometry? ⟨.setAssociative, 4, 6, 3, 1, .lru⟩ (.seeded 0) = .ok s' :=
    ⟨_, _, rfl, rfl⟩
  have hruns : ∃ summary summary',
      (Simulation.completed Simulation.smallConfig ⟨[Simulation.loopScript]⟩ .empty 40).result = .ok (some summary) ∧
        (Simulation.completed (Simulation.smallConfig.resized ⟨12⟩) ⟨[Simulation.loopScript]⟩ .empty 40).result =
          .ok (some summary') :=
    ⟨_, _, rfl, rfl⟩
  obtain ⟨s, s', hs, hs'⟩ := hstores
  obtain ⟨summary, summary', h, h'⟩ := hruns
  have henlarged : Geometry.Enlarged ⟨.setAssociative, 4, 4, 2, 1, .lru⟩ ⟨.setAssociative, 4, 6, 3, 1, .lru⟩ :=
    .sets rfl rfl rfl rfl (by decide)
  refine ⟨⟨s, s', hs, hs', ?_⟩, summary, summary', h, h', ?_⟩
  · exact larger_lru_hits.1 _ _ _ _ s s' rfl rfl henlarged hs hs' xs
  · exact larger_lru_hits.2 Simulation.smallConfig ⟨12⟩ ⟨[Simulation.loopScript]⟩ Simulation.loopScript .empty .empty
      40 40 summary summary' rfl rfl (by decide) rfl h h'

end CacheSim
