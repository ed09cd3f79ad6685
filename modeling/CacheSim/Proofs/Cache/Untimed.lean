import CacheSim.Proofs.Store.Basic

/-!
# A cache without time

A cache that serves its requests one after another, each at once: there are no
ports, no refusals, and nothing is held back.  A hit touches the block.  A miss
fetches the block, inserts it, writes the victim back, and then performs a
request for a part of the block.  The answers of the memory are given
beforehand, one for each miss.

This is what the order of the lines, the victims and the requests to the memory
are compared with.
-/

namespace CacheSim

/-- Performs a packet that was kept until its block came. -/
def Store.complete (s : Store) : Option Packet → Sim Store
  | none => pure s
  | some p => do
    match ← s.access p with
    | some (_, s) => return s
    | none => Sim.fail (.missAfterFill "untimed" p)

/-- A store, the answers of the memory that are to come, and what was done. -/
structure Untimed where
  store : Store
  /-- What the memory answers to the fetches to come, the next one first. -/
  answers : List Packet
  /-- The requests to the memory, the first one in front. -/
  asked : List Packet := []
  /-- Which requests hit, the first one in front. -/
  hits : List Bool := []

namespace Untimed

/-- The cache once a request missed and the fetch of its block was sent. -/
def missed (u : Untimed) (p : Packet) : Untimed :=
  { u with asked := u.asked ++ [p.fetch u.store.lineSize], hits := u.hits ++ [false] }

/-- Takes the block that a request waits for, and completes the request. -/
def fill (u : Untimed) (p : Packet) : Sim Untimed :=
  match u.answers with
  | [] => Sim.fail (.responseCount 0 1)
  | a :: answers => do
    let data ← a.data?
    let (victim, store) ← u.store.insert (p.block u.store.lineSize) data
    let store ← store.complete (p.kept u.store.lineSize)
    return { u with store, answers, asked := u.asked ++ Store.writebacks victim }

/-- Serves a request. -/
def serve (u : Untimed) (p : Packet) : Sim Untimed := do
  match ← u.store.access p with
  | some (_, store) =>
    return { u with store := store.touch (p.block u.store.lineSize), hits := u.hits ++ [true] }
  | none => (u.missed p).fill p

/-- Serves requests one after another. -/
def serveAll (u : Untimed) : List Packet → Sim Untimed
  | [] => pure u
  | p :: ps => do
    let u ← u.serve p
    u.serveAll ps

/-- The cache to which the memory will give further answers. -/
def withMore (u : Untimed) (more : List Packet) : Untimed :=
  { u with answers := u.answers ++ more }

variable {u v : Untimed} {p : Packet}

theorem serve_of_hit {q : Packet} {t : Store} (h : (u.store.access p).result = .ok (some (q, t))) :
    (u.serve p).result = .ok
      { u with store := t.touch (p.block u.store.lineSize), hits := u.hits ++ [true] } := by
  simp [serve, h]

theorem serve_of_miss {a : Packet} {answers : List Packet} {data : Bytes} {victim : Option Line}
    {t store : Store} (h : (u.store.access p).result = .ok none) (ha : u.answers = a :: answers)
    (hd : a.payload = some data)
    (hi : (u.store.insert (p.block u.store.lineSize) data).result = .ok (victim, t))
    (hc : (t.complete (p.kept u.store.lineSize)).result = .ok store) :
    (u.serve p).result = .ok
      { u with
        store, answers
        asked := u.asked ++ p.fetch u.store.lineSize :: Store.writebacks victim
        hits := u.hits ++ [false] } := by
  simp [serve, h, missed, fill, ha, Packet.data?, hd, hi, hc]

theorem withMore_nil (u : Untimed) : u.withMore [] = u := by
  rw [withMore, List.append_nil]

/-- One request more is served last. -/
theorem serveAll_concat (u : Untimed) (ps : List Packet) (p : Packet) :
    (u.serveAll (ps ++ [p])).result = (u.serveAll ps).result >>= fun v => (v.serve p).result := by
  induction ps generalizing u with
  | nil =>
    simp only [List.nil_append, serveAll, Sim.result_bind, Sim.result_pure, Sim.ok_bind]
    cases (u.serve p).result <;> rfl
  | cons q ps ih =>
    simp only [List.cons_append, serveAll, Sim.result_bind, ih]
    cases (u.serve q).result <;> rfl

/-- Answers that are not asked for yet are left over. -/
theorem serve_withMore (more : List Packet) (h : (u.serve p).result = .ok v) :
    ((u.withMore more).serve p).result = .ok (v.withMore more) := by
  simp only [serve, Sim.result_bind] at h
  obtain ⟨_ | ⟨q, t⟩, hacc, h⟩ := Sim.bind_eq_ok.mp h
  · simp only [missed, fill] at h
    split at h
    · cases h
    · rename_i a answers ha
      simp only [Sim.result_bind, Sim.result_liftM] at h
      obtain ⟨data, hdata, h⟩ := Sim.bind_eq_ok.mp h
      obtain ⟨⟨victim, s⟩, hins, h⟩ := Sim.bind_eq_ok.mp h
      obtain ⟨store, hcomp, h⟩ := Sim.bind_eq_ok.mp h
      obtain rfl := Except.ok.inj h
      have ha' : u.answers = a :: answers := ha
      simp [serve, withMore, hacc, missed, fill, ha', hdata, hins, hcomp]
  · obtain rfl := Except.ok.inj h
    exact serve_of_hit (u := u.withMore more) hacc

theorem serveAll_withMore (more : List Packet) {ps : List Packet} (h : (u.serveAll ps).result = .ok v) :
    ((u.withMore more).serveAll ps).result = .ok (v.withMore more) := by
  induction ps generalizing u with
  | nil =>
    obtain rfl := Except.ok.inj h
    rfl
  | cons p ps ih =>
    simp only [serveAll, Sim.result_bind] at h ⊢
    obtain ⟨w, hw, h⟩ := Sim.bind_eq_ok.mp h
    rw [serve_withMore more hw]
    exact ih h

end Untimed

end CacheSim
