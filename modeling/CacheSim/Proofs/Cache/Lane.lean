import CacheSim.Cache.Retry
import CacheSim.Cache.Timing
import CacheSim.Proofs.Port

/-!
# The lane to the memory

Packets wait for the memory at the memory side port, or behind the one that
waits there.  Seen from the cache, it makes no difference where they are:
`Lane.backing` is the memory after all of them, and `Lane.coming` are the
answers that are owed or will be.

* `Lane.Sound.push_spec`: a packet put on the lane counts as performed;
* `Lane.Sound.retried_spec`: a signal of the memory moves packets along and
  changes neither;
* `Lane.Sound.take_spec`: an answer that is given is no longer to come.
-/

namespace CacheSim

/-- The port towards the memory and the fetch that waits behind it. -/
structure Lane (μ : Type) where
  port : MemSidePort μ
  deferred : Option Packet

namespace Lane

variable {μ : Type} [LawfulMemory μ]

/-- The packets that wait for the memory, in order. -/
def held (l : Lane μ) : List Packet :=
  l.port.parked.toList ++ l.deferred.toList

/-- The contents of the memory. -/
def contents (l : Lane μ) : FlatMemory :=
  LawfulMemory.contents l.port.peer

/-- The answers that the memory owes. -/
def owed (l : Lane μ) : List Packet :=
  LawfulMemory.owed l.port.peer

/-- The memory after the packets that wait for it. -/
def backing (l : Lane μ) : FlatMemory :=
  l.contents.after l.held

/-- The answers that the memory owes, and those that it will owe. -/
def coming (l : Lane μ) : List Packet :=
  l.owed ++ l.contents.answers l.held

/-- Offers a packet to the memory, or lets it wait behind the one that waits. -/
def push (l : Lane μ) (p : Packet) : Lane μ :=
  match l.port.parked with
  | some _ => { l with deferred := some p }
  | none => { l with port := l.port.forwarded p }

/-- Puts packets on the lane one after another. -/
def pushAll (l : Lane μ) (ps : List Packet) : Lane μ :=
  ps.foldl push l

/-- Offers the waiting packets again. -/
def retried (l : Lane μ) : Lane μ :=
  match l.port.parked with
  | none => l
  | some p =>
    let port := l.port.freed.forwarded p
    match l.deferred with
    | none => ⟨port, none⟩
    | some f => if port.parked.isNone then ⟨port.forwarded f, none⟩ else ⟨port, some f⟩

/-- The lane to another state of the memory. -/
def withPeer (l : Lane μ) (peer : μ) : Lane μ :=
  { l with port := { l.port with peer } }

/-- What waits are blocks that the memory serves, a fetch waits behind a packet
without an answer only, and nothing waits while an answer is owed. -/
structure Sound (D : Nat → Prop) (size : Nat) (l : Lane μ) : Prop where
  order : l.owed ≠ [] → l.held = []
  behind : ∀ f ∈ l.deferred, f.command.needsResponse ∧
    ∃ w, l.port.parked = some w ∧ w.command.needsResponse = false
  blocks : ∀ p ∈ l.held, p.IsBlock size ∧ D p.addr
  serves : ∀ p : Packet, p.IsBlock size → D p.addr → LawfulMemory.Serves l.port.peer p

variable {D : Nat → Prop} {size : Nat} {l : Lane μ} {p : Packet}

theorem deferred_eq_none_of_coming (h : l.Sound D size) (hc : l.coming = []) : l.deferred = none := by
  cases hf : l.deferred with
  | none => rfl
  | some f =>
    have hr := (h.behind f hf).1
    have hn := FlatMemory.answers_eq_nil_iff.mp (List.append_eq_nil_iff.mp hc).2 f (by simp [held, hf])
    rw [hr] at hn
    cases hn

theorem owed_eq_nil_of_coming (hc : l.coming = []) : l.owed = [] :=
  (List.append_eq_nil_iff.mp hc).1

theorem backing_of_free (hp : l.port.parked = none) (hd : l.deferred = none) : l.backing = l.contents := by
  simp [backing, held, hp, hd]

/-! ## Putting a packet on the lane -/

theorem push_of_free (h : l.port.parked = none) (p : Packet) :
    l.push p = { l with port := l.port.forwarded p } := by
  simp only [push, h]

/-- A packet that waits alone is offered. -/
theorem retried_of_alone (hp : l.port.parked = some p) (hd : l.deferred = none) :
    l.retried = ⟨l.port.freed.forwarded p, none⟩ := by
  simp only [retried, hp, hd]

/-- The waiting packet is accepted, and the fetch behind it is offered. -/
theorem retried_of_accepted {f : Packet} (hp : l.port.parked = some p) (hd : l.deferred = some f)
    (hpark : (l.port.freed.forwarded p).parked = none) :
    l.retried = ⟨(l.port.freed.forwarded p).forwarded f, none⟩ := by
  simp [retried, hp, hd, hpark]

/-- The waiting packet waits on, and so does the fetch behind it. -/
theorem retried_of_refused {f w : Packet} (hp : l.port.parked = some p) (hd : l.deferred = some f)
    (hpark : (l.port.freed.forwarded p).parked = some w) : l.retried = ⟨l.port.freed.forwarded p, some f⟩ := by
  simp [retried, hp, hd, hpark]

/-- A packet that is offered to the memory while nothing waits. -/
theorem Sound.forwarded_spec (h : l.Sound D size) (hp : l.port.parked = none) (ho : l.owed = [])
    (hb : p.IsBlock size) (hD : D p.addr) :
    (Lane.mk (l.port.forwarded p) none).Sound D size ∧
      (Lane.mk (l.port.forwarded p) none).coming = l.contents.answers [p] ∧
      (Lane.mk (l.port.forwarded p) none).backing = l.contents.perform p := by
  have hserve := h.serves p hb hD
  have hserve' := fun q hq hqD => MemSidePort.serves_forwarded hserve (h.serves q hq hqD)
  rcases MemSidePort.forwarded_cases hp hserve with ⟨hpark, hcont, hans⟩ | ⟨hpark, hcont, hans⟩
  · have hheld : (Lane.mk (l.port.forwarded p) none).held = [] := by simp [held, hpark]
    refine ⟨⟨fun _ => hheld, by simp, by simp [hheld], hserve'⟩, ?_, ?_⟩
    · show LawfulMemory.owed _ ++ FlatMemory.answers _ (Lane.held _) = _
      rw [hheld, hans, FlatMemory.answers_nil, List.append_nil]
      exact congrArg (· ++ _) ho
    · rw [backing_of_free hpark rfl]
      exact hcont
  · have hheld : (Lane.mk (l.port.forwarded p) none).held = [p] := by simp [held, hpark]
    have hnone : (Lane.mk (l.port.forwarded p) none).owed = [] := hans.trans ho
    refine ⟨⟨fun h => absurd hnone h, by simp, ?_, hserve'⟩, ?_, ?_⟩
    · intro q hq
      rw [hheld] at hq
      obtain rfl := List.mem_singleton.mp hq
      exact ⟨hb, hD⟩
    · rw [coming, hheld, hnone]
      exact congrArg (FlatMemory.answers · [p]) hcont
    · rw [backing, hheld]
      exact congrArg (FlatMemory.after · [p]) hcont

/-- A packet put on a lane from which nothing is to come. -/
theorem Sound.push_spec (h : l.Sound D size) (hc : l.coming = []) (hb : p.IsBlock size) (hD : D p.addr)
    (hr : l.held = [] ∨ p.command.needsResponse) :
    (l.push p).Sound D size ∧ (l.push p).coming = l.backing.answers [p] ∧
      (l.push p).backing = l.backing.perform p := by
  have howed := owed_eq_nil_of_coming hc
  have hdef := deferred_eq_none_of_coming h hc
  cases hp : l.port.parked with
  | none =>
    have hpush : l.push p = ⟨l.port.forwarded p, none⟩ := by rw [push_of_free hp, hdef]
    rw [hpush, backing_of_free hp hdef]
    exact h.forwarded_spec hp howed hb hD
  | some w =>
    have hheld : l.held = [w] := by simp [held, hp, hdef]
    have hw := FlatMemory.answers_eq_nil_iff.mp (List.append_eq_nil_iff.mp hc).2 w (by simp [hheld])
    have hpush : l.push p = { l with deferred := some p } := by simp only [push, hp]
    have hheld' : (l.push p).held = [w] ++ [p] := by simp [hpush, held, hp]
    have hneeds : p.command.needsResponse := hr.resolve_left (by simp [hheld])
    refine ⟨⟨?_, ?_, ?_, ?_⟩, ?_, ?_⟩
    · rw [hpush]
      exact fun ho => absurd howed ho
    · rintro f hf
      rw [hpush] at hf ⊢
      obtain rfl := Option.some.inj hf
      exact ⟨hneeds, w, hp, hw⟩
    · intro q hq
      rw [hheld'] at hq
      rcases List.mem_append.mp hq with hq | hq
      · exact h.blocks q (hheld ▸ hq)
      · obtain rfl := List.mem_singleton.mp hq
        exact ⟨hb, hD⟩
    · rw [hpush]
      exact h.serves
    · rw [coming, hheld', FlatMemory.answers_append, hpush]
      show l.owed ++ (l.contents.answers [w] ++ (l.contents.after [w]).answers [p]) = _
      rw [howed, FlatMemory.answers_eq_nil_iff.mpr (by simpa using hw), backing, hheld]
      rfl
    · rw [backing, hheld', FlatMemory.after_append, hpush, backing, hheld]
      rfl

/-! ## Moving along -/

/-- A signal of the memory changes neither what the lane has performed nor what
is to come. -/
theorem Sound.retried_spec (h : l.Sound D size) (hp : l.port.parked = some p) :
    l.retried.Sound D size ∧ l.retried.coming = l.coming ∧ l.retried.backing = l.backing := by
  have hmem : p ∈ l.held := by simp [held, hp]
  have howed : l.owed = [] := by
    refine Classical.byContradiction fun ho => ?_
    rw [h.order ho] at hmem
    cases hmem
  have hbD := h.blocks p hmem
  have hfree : (Lane.mk l.port.freed none).Sound D size :=
    ⟨fun _ => rfl, by simp, by simp [held, MemSidePort.freed], h.serves⟩
  have hcl : l.coming = l.contents.answers l.held := by rw [coming, howed, List.nil_append]
  obtain ⟨hs, hc, hb⟩ := hfree.forwarded_spec rfl howed hbD.1 hbD.2
  cases hd : l.deferred with
  | none =>
    have hheld : l.held = [p] := by simp [held, hp, hd]
    rw [retried_of_alone hp hd, hcl, show l.backing = l.contents.after l.held from rfl, hheld]
    exact ⟨hs, hc, hb⟩
  | some f =>
    have hheld : l.held = [p] ++ [f] := by simp [held, hp, hd]
    obtain ⟨-, w, hw, hwr⟩ := h.behind f hd
    obtain rfl : p = w := Option.some.inj (hp.symm.trans hw)
    have hans : l.contents.answers [p] = [] := FlatMemory.answers_eq_nil_iff.mpr (by simpa using hwr)
    have hfD := h.blocks f (by simp [hheld])
    rcases MemSidePort.forwarded_cases (m := l.port.freed) rfl
      (h.serves p hbD.1 hbD.2) with ⟨hpark, hcont, -⟩ | ⟨hpark, hcont, hnone⟩
    · have hr := retried_of_accepted hp hd hpark
      have hnone := owed_eq_nil_of_coming (hc.trans hans)
      obtain ⟨hs', hc', hb'⟩ := hs.forwarded_spec hpark hnone hfD.1 hfD.2
      have hcont' : (Lane.mk (l.port.freed.forwarded p) none).contents = l.contents.after [p] := hcont
      rw [hcont'] at hc' hb'
      rw [hr, hcl, show l.backing = l.contents.after l.held from rfl, hheld, FlatMemory.answers_append, hans,
        FlatMemory.after_append]
      exact ⟨hs', hc', hb'⟩
    · have hr := retried_of_refused hp hd hpark
      have hheld' : l.retried.held = l.held := by simp [hr, held, hpark, hp, hd]
      have howed' : l.retried.owed = l.owed := by rw [hr]; exact hnone
      have hcont' : l.retried.contents = l.contents := by rw [hr]; exact hcont
      refine ⟨⟨?_, ?_, ?_, ?_⟩, ?_, ?_⟩
      · rw [howed', hheld']
        exact h.order
      · rw [hr]
        intro g hg
        exact ⟨(h.behind g (hd ▸ hg)).1, p, hpark, hwr⟩
      · rw [hheld']
        exact h.blocks
      · rw [hr]
        exact hs.serves
      · rw [coming, coming, howed', hheld', hcont']
      · rw [backing, backing, hheld', hcont']

/-! ## The memory on its own -/

variable {peer : μ}

/-- A memory that gave its answers. -/
theorem Sound.take_spec (h : l.Sound D size) (hne : l.owed ≠ [])
    (hcont : LawfulMemory.contents peer = l.contents) (howed : LawfulMemory.owed peer = [])
    (hserve : ∀ q, LawfulMemory.Serves l.port.peer q → LawfulMemory.Serves peer q) :
    (l.withPeer peer).Sound D size ∧ (l.withPeer peer).coming = [] ∧ (l.withPeer peer).held = [] ∧
      (l.withPeer peer).backing = l.backing := by
  have hheld : (l.withPeer peer).held = [] := h.order hne
  refine ⟨⟨fun _ => hheld, h.behind, h.blocks, fun q hq hD => hserve q (h.serves q hq hD)⟩, ?_, hheld, ?_⟩
  · rw [coming, hheld, FlatMemory.answers_nil, List.append_nil]
    exact howed
  · rw [backing, backing, hheld, h.order hne]
    exact hcont

/-- A memory whose contents changed owes answers to the same packets. -/
theorem Sound.change_spec (h : l.Sound D size) (peer : μ) (howed : LawfulMemory.owed peer = l.owed)
    (hserve : ∀ q, LawfulMemory.Serves l.port.peer q → LawfulMemory.Serves peer q) :
    (l.withPeer peer).Sound D size ∧ (l.coming = [] → (l.withPeer peer).coming = []) ∧
      ∀ addr, (∃ a, l.coming = [a] ∧ a.IsFill addr size) →
        ∃ a, (l.withPeer peer).coming = [a] ∧ a.IsFill addr size := by
  have hcoming : (l.withPeer peer).coming = l.owed ++ (l.withPeer peer).contents.answers l.held :=
    congrArg (· ++ _) howed
  refine ⟨⟨fun ho => h.order (howed ▸ ho), h.behind, h.blocks, fun q hq hD => hserve q (h.serves q hq hD)⟩,
    fun hc => ?_, ?_⟩
  · obtain ⟨h₁, h₂⟩ := List.append_eq_nil_iff.mp hc
    rw [hcoming, h₁, FlatMemory.answers_eq_nil_iff.mpr (FlatMemory.answers_eq_nil_iff.mp h₂)]
    rfl
  · rintro addr ⟨a, ha, hfill⟩
    rw [hcoming]
    by_cases ho : l.owed = []
    · rw [coming, ho, List.nil_append] at ha
      obtain ⟨f, hf, hr, ⟨m₁, rfl⟩, hall⟩ := FlatMemory.answers_eq_singleton ha
      obtain ⟨m₂, hm₂⟩ := hall (l.withPeer peer).contents
      have hb := (h.blocks f hf).1
      exact ⟨m₂.answer f, by rw [ho, hm₂]; rfl, hfill.addr_eq ▸ hb.isFill_answer hr m₂⟩
    · rw [h.order ho, FlatMemory.answers_nil, List.append_nil]
      rw [coming, h.order ho, FlatMemory.answers_nil, List.append_nil] at ha
      exact ⟨a, ha, hfill⟩

end Lane

end CacheSim
