import CacheSim.Proofs.Session.Basic

/-!
# What a call does to a session

`Session.View` is what the records and the cache show of a session, and `Step`
says all that a call can do to it: packets move along, a request is accepted,
an access goes past the timing path, and the access of the request in service
hits, misses, or is completed by the block that comes.
-/

namespace CacheSim

namespace Lane

/-- The lane once the memory gave the answer at a place. -/
def gave (l : Lane (Recorded FreeMemory)) (i : Nat) : Lane (Recorded FreeMemory) :=
  l.withPeer (l.port.peer.gave i)

/-- The lane once the memory performed a packet at once. -/
def performed (l : Lane (Recorded FreeMemory)) (p : Packet) : Lane (Recorded FreeMemory) :=
  let m := l.port.peer
  l.withPeer { m with memory := { m.memory with contents := m.memory.contents.perform p } }

variable (l : Lane (Recorded FreeMemory))

@[simp] theorem held_gave (i : Nat) : (l.gave i).held = l.held := rfl
@[simp] theorem asked_gave (i : Nat) : (l.gave i).asked = l.asked := rfl
@[simp] theorem owed_gave (i : Nat) : (l.gave i).owed = l.owed.eraseIdx i := rfl
@[simp] theorem unanswered_gave (i : Nat) : (l.gave i).unanswered = l.unanswered.eraseIdx i := rfl

end Lane

namespace Session

open Cache

/-- What a session shows of itself. -/
structure View where
  /-- The bytes of a line. -/
  size : Nat
  store : Store
  stats : CacheStats
  service : Service
  lane : Lane (Recorded FreeMemory)
  /-- The answers that every port was given. -/
  sent : Nat → List Packet
  completed : List (Nat × Packet)
  current : Option (Nat × Packet)
  hits : List Bool
  given : List Packet
  history : List (Option Nat × Packet)
  overtaking : List Packet

/-- What is to be seen of a session. -/
def view (s : Session) : View where
  size := s.cache.lineSize
  store := s.cache.store
  stats := s.cache.stats
  service := s.cache.service
  lane := s.cache.lane
  sent := s.cache.sentOn
  completed := s.completed
  current := s.current
  hits := s.hits
  given := s.given
  history := s.history
  overtaking := s.overtaking

namespace View

/-- The bytes that the cache shows. -/
def image (v : View) : FlatMemory :=
  v.store.overlay v.lane.backing

/-- The request in service was answered. -/
def answered (v : View) (id : Nat) (p a : Packet) : View :=
  { v with
    service := .idle
    sent := fun j => v.sent j ++ if id = j then [a] else []
    completed := v.completed ++ [(id, p)]
    current := none
    history := v.history ++ [(some id, p)] }

/-- The parts of the cache are in order. -/
structure Sane (v : View) : Prop where
  valid : v.store.Valid
  lineSize : v.store.lineSize = v.size
  pos : 0 < v.size
  lane : v.lane.Sound (fun _ => True) v.size

end View

/-- Where an access past the timing path is performed: in the store, if its
block is resident, and otherwise in the memory. -/
inductive Effect (v : View) (p : Packet) : Store → Lane (Recorded FreeMemory) → Prop
  | resident {q : Packet} {t : Store} (access : (v.store.access p).result = .ok (some (q, t)))
    (resident : (v.store.lookup (p.block v.size)).isSome)
    (lookup : ∀ b, (t.lookup b).isSome ↔ (v.store.lookup b).isSome)
    (overlay : ∀ m, t.overlay m = (v.store.overlay m).perform p) : Effect v p t v.lane
  | absent (absent : v.store.lookup (p.block v.size) = none) : Effect v p v.store (v.lane.performed p)

/-- What is recorded of an access past the timing path. -/
inductive Noted (v : View) (p : Packet) : List (Option Nat × Packet) → List Packet → Prop
  | shadowed {w : Packet} (parked : v.lane.port.parked = some w) (command : w.command = .writebackDirty)
    (addr : w.addr = p.block v.size) : Noted v p v.history v.overtaking
  | overtakes {f : Packet}
    (parked : ∀ w ∈ v.lane.port.parked, w.command = .writebackDirty → w.addr ≠ p.block v.size)
    (unanswered : f ∈ v.lane.unanswered) (addr : f.addr = p.block v.size) :
    Noted v p v.history (v.overtaking ++ [p])
  | lasting (parked : ∀ w ∈ v.lane.port.parked, w.command = .writebackDirty → w.addr ≠ p.block v.size)
    (unanswered : ∀ f ∈ v.lane.unanswered, f.addr ≠ p.block v.size) :
    Noted v p (v.history ++ [(none, p)]) v.overtaking

/-- All that a call can do. -/
inductive Step : Action → View → View → Prop
  /-- Packets move along, or time passes, or a port is refused or asked again. -/
  | moved {a : Action} {v : View} {lane : Lane (Recorded FreeMemory)} {taken : List Packet}
    (took : v.lane.Took lane [] taken) : Step a v { v with lane }
  /-- A request is accepted, and its access is scheduled. -/
  | accepted {v : View} {id : Nat} {p : Packet} (service : v.service = .idle) (current : v.current = none)
    (access : p.IsAccess v.size) :
    Step (.offer id p) v { v with service := .access id, current := some (id, p) }
  /-- An access goes past the timing path. -/
  | functional {v : View} {id : Nat} {p : Packet} {store : Store} {lane : Lane (Recorded FreeMemory)}
    {history : List (Option Nat × Packet)} {overtaking : List Packet} (access : p.IsAccess v.size)
    (effect : Effect v p store lane) (noted : Noted v p history overtaking) :
    Step (.functional id p) v { v with store, lane, history, overtaking }
  /-- The access that was scheduled hits, and is answered. -/
  | hit {v : View} {id : Nat} {p q : Packet} {t : Store} (service : v.service = .access id)
    (current : v.current = some (id, p)) (access : p.IsAccess v.size) (coming : v.lane.coming = [])
    (hit : (v.store.access p).result = .ok (some (q, t)))
    (image : (t.touch (p.block v.size)).overlay v.lane.backing = v.image.perform p) :
    Step .fire v ({ v with
      store := t.touch (p.block v.size)
      stats := { v.stats with hits := v.stats.hits + 1 }
      hits := v.hits ++ [true] }.answered id p (v.image.answer p))
  /-- It misses, and the fetch of its block is put on the lane. -/
  | missed {v : View} {id : Nat} {p : Packet} {since : Tick} {lane : Lane (Recorded FreeMemory)}
    {taken : List Packet} (service : v.service = .access id) (current : v.current = some (id, p))
    (access : p.IsAccess v.size) (coming : v.lane.coming = [])
    (absent : v.store.lookup (p.block v.size) = none)
    (took : v.lane.Took lane [p.fetch v.size] taken) :
    Step .fire v { v with
      stats := { v.stats with misses := v.stats.misses + 1 }
      service := .fetch id since (p.kept v.size)
      lane
      hits := v.hits ++ [false] }
  /-- The block comes and is inserted, the victim is written back, and the
  request is answered. -/
  | filled {v : View} {id : Nat} {p : Packet} {since : Tick} {other : Option Bytes} {due a : Packet}
    {data : Bytes} {victim : Option Line} {t store : Store} {stats : CacheStats}
    {lane : Lane (Recorded FreeMemory)} {taken : List Packet}
    (service : v.service = .fetch id since (p.kept v.size)) (current : v.current = some (id, p))
    (access : p.IsAccess v.size) (absent : v.store.lookup (p.block v.size) = none)
    (held : v.lane.held = []) (owed : v.lane.owed = [due])
    (answer : a = { due with payload := other.or due.payload })
    (payload : a.payload = some data) (length : data.length = v.size)
    (insert : (v.store.insert (p.block v.size) data).result = .ok (victim, t))
    (complete : (t.complete (p.kept v.size)).result = .ok store)
    (took : (v.lane.gave 0).Took lane (Store.writebacks victim) taken)
    (image : store.overlay lane.backing = p.outcome v.size (v.image.write (p.block v.size) data))
    (hits : stats.hits = v.stats.hits) (misses : stats.misses = v.stats.misses)
    (samples : stats.missLatency.samples = v.stats.missLatency.samples + 1) :
    Step (.answer 0 other) v ({ v with store, stats, lane, given := v.given ++ [a], overtaking := [] }.answered
      id p (p.completion v.size (v.image.write (p.block v.size) data) a))

/-- Between two calls, the cache is consistent with the request in service. -/
def Steady (s : Session) : Prop :=
  s.cache.Consistent (fun _ => True) s.queue s.current

theorem Steady.sane {s : Session} (h : s.Steady) : s.view.Sane :=
  ⟨Consistent.sane h |>.valid, Consistent.sane h |>.lineSize, Consistent.sane h |>.pos, Consistent.sane h |>.lane⟩

/-- The control fields are those of the service that is seen. -/
theorem Steady.phase_view {s : Session} (h : s.Steady) : s.view.service.phase = s.cache.phase :=
  ((Consistent.sane h).agrees.phase_eq rfl).symm

end Session

end CacheSim
