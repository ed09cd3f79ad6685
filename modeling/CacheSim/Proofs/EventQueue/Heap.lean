import CacheSim.Proofs.Alike.Basic
import CacheSim.Proofs.EventQueue.Basic

/-!
# Event queues as heaps

A heap of numbered events, of which the earlier one is greater, and of events of
one time the one with the lower number.  Whatever heap gives out its greatest
entry (`GreatestFirst`), calls of it and of the event queue go the same way
(`Represents.run`).

`run_stable` says what all calls of an event queue do, after any run from an
empty one.
-/

namespace CacheSim

namespace EventQueue

variable {ε : Type}

/-- A numbered event. -/
structure Entry (ε : Type) where
  tick : Tick
  number : Nat
  event : ε

namespace Entry

/-- The order of a heap: an entry is greater if it is earlier, or as early and numbered lower. -/
def le (a b : Entry ε) : Prop :=
  b.tick < a.tick ∨ b.tick = a.tick ∧ b.number ≤ a.number

/-- The entry fires before the other one. -/
def Before (a b : Entry ε) : Prop :=
  a.tick < b.tick ∨ a.tick = b.tick ∧ a.number < b.number

/-- The event with its time. -/
def timed (e : Entry ε) : Tick × ε :=
  (e.tick, e.event)

instance (a b : Entry ε) : Decidable (a.le b) :=
  inferInstanceAs (Decidable (_ ∨ _))

theorem le_refl (a : Entry ε) : a.le a :=
  .inr ⟨rfl, Nat.le_refl _⟩

theorem le_trans {a b c : Entry ε} (hab : a.le b) (hbc : b.le c) : a.le c := by
  rcases hab with hab | ⟨hab, hn⟩
  · rcases hbc with hbc | ⟨hbc, -⟩
    · exact .inl (Nat.lt_trans hbc hab)
    · exact .inl (hbc ▸ hab)
  · rcases hbc with hbc | ⟨hbc, hm⟩
    · exact .inl (hab ▸ hbc)
    · exact .inr ⟨hbc.trans hab, Nat.le_trans hm hn⟩

theorem le_total (a b : Entry ε) : a.le b ∨ b.le a := by
  rcases Nat.lt_trichotomy a.tick b.tick with h | h | h
  · exact .inr (.inl h)
  · rcases Nat.le_total a.number b.number with hn | hn
    · exact .inr (.inr ⟨h, hn⟩)
    · exact .inl (.inr ⟨h.symm, hn⟩)
  · exact .inl (.inl h)

theorem Before.not_le {a b : Entry ε} (h : a.Before b) : ¬a.le b := by
  intro hle
  rcases h with h | ⟨ht, hn⟩
  · rcases hle with hle | ⟨hle, -⟩
    · exact Nat.lt_asymm h hle
    · exact Nat.ne_of_lt h hle.symm
  · rcases hle with hle | ⟨-, hle⟩
    · exact Nat.ne_of_lt hle ht.symm
    · exact Nat.not_lt.mpr hle hn

theorem Before.tick_le {a b : Entry ε} (h : a.Before b) : a.timed.1 ≤ b.timed.1 := by
  rcases h with h | ⟨ht, -⟩
  · exact Nat.le_of_lt h
  · exact Nat.le_of_eq ht

end Entry

/-- A way to keep entries and to give out a greatest one. -/
structure GreatestFirst (ε : Type) where
  push : Entry ε → List (Entry ε) → List (Entry ε)
  pop? : List (Entry ε) → Option (Entry ε × List (Entry ε))
  push_perm : ∀ e es, (push e es).Perm (e :: es)
  eq_nil_of_pop? : ∀ {es}, pop? es = none → es = []
  perm_of_pop? : ∀ {es e rest}, pop? es = some (e, rest) → es.Perm (e :: rest)
  greatest : ∀ {es e rest}, pop? es = some (e, rest) → ∀ x ∈ es, x.le e

namespace GreatestFirst

/-- Searches entries for a greatest one. -/
def search : List (Entry ε) → Option (Entry ε × List (Entry ε))
  | [] => none
  | e :: es =>
    match search es with
    | none => some (e, es)
    | some (b, rest) => if b.le e then some (e, es) else some (b, e :: rest)

theorem eq_nil_of_search {es : List (Entry ε)} (h : search es = none) : es = [] := by
  cases es with
  | nil => rfl
  | cons e es =>
    rw [search] at h
    split at h
    · cases h
    · split at h <;> cases h

theorem search_eq_some {es rest : List (Entry ε)} {b : Entry ε} (h : search es = some (b, rest)) :
    es.Perm (b :: rest) ∧ ∀ x ∈ es, x.le b := by
  induction es generalizing b rest with
  | nil => cases h
  | cons e es ih =>
    rw [search] at h
    cases hs : search es with
    | none =>
      rw [hs] at h
      obtain ⟨rfl, rfl⟩ := Prod.mk.inj (Option.some.inj h)
      rw [eq_nil_of_search hs]
      exact ⟨.refl _, by simp [Entry.le_refl]⟩
    | some x =>
      obtain ⟨a, others⟩ := x
      obtain ⟨hperm, hgreatest⟩ := ih hs
      rw [hs] at h
      by_cases hle : a.le e
      · simp only [if_pos hle] at h
        obtain ⟨rfl, rfl⟩ := Prod.mk.inj (Option.some.inj h)
        exact ⟨.refl _, List.forall_mem_cons.mpr ⟨Entry.le_refl e, fun x hx => Entry.le_trans (hgreatest x hx) hle⟩⟩
      · simp only [if_neg hle] at h
        obtain ⟨rfl, rfl⟩ := Prod.mk.inj (Option.some.inj h)
        exact ⟨(hperm.cons e).trans (.swap ..),
          List.forall_mem_cons.mpr ⟨(Entry.le_total e a).resolve_right hle, hgreatest⟩⟩

/-- Entries as they come, among which the greatest one is searched for. -/
instance : Inhabited (GreatestFirst ε) where
  default := {
    push := List.cons
    pop? := search
    push_perm := fun _ _ => .refl _
    eq_nil_of_pop? := eq_nil_of_search
    perm_of_pop? := fun h => (search_eq_some h).1
    greatest := fun h => (search_eq_some h).2 }

end GreatestFirst

/-- A heap of events, the number of the next one, and the current time. -/
structure EventHeap (ε : Type) where
  now : Tick := 0
  number : Nat := 0
  entries : List (Entry ε) := []

namespace EventHeap

variable (k : GreatestFirst ε) (h : EventHeap ε)

/-- The time of the greatest entry. -/
def next? : Option Tick :=
  (k.pop? h.entries).map (·.1.tick)

def schedule (event : ε) (tick : Tick) : Except Fault (EventHeap ε) :=
  if h.now ≤ tick then .ok { h with number := h.number + 1, entries := k.push ⟨tick, h.number, event⟩ h.entries }
  else .error (.eventInPast tick h.now)

def advanceTo (tick : Tick) : Except Fault (EventHeap ε) := do
  unless h.now ≤ tick do throw (.timeBackwards h.now tick)
  if let some next := h.next? k then
    unless tick ≤ next do throw (.pastPendingEvent tick next)
  return { h with now := tick }

/-- Takes the greatest entry and moves time to it. -/
def pop : Option (Tick × ε) × EventHeap ε :=
  match k.pop? h.entries with
  | some (e, rest) => (some e.timed, { h with now := e.tick, entries := rest })
  | none => (none, h)

/-- Makes a call. -/
def perform : Call ε → Except Fault (Option (Tick × ε) × EventHeap ε)
  | .schedule event tick => do return (none, ← h.schedule k event tick)
  | .advanceTo tick => do return (none, ← h.advanceTo k tick)
  | .pop => return h.pop k
  | .popDue tick =>
    match h.next? k with
    | some next => return if next ≤ tick then h.pop k else (none, h)
    | none => return (none, h)

/-- Makes calls in order. -/
def run : List (Call ε) → EventHeap ε → Except Fault (List (Tick × ε) × EventHeap ε)
  | [], h => return ([], h)
  | c :: rest, h => do
    let (event, h) ← h.perform k c
    let (events, h) ← run rest h
    return (event.toList ++ events, h)

end EventHeap

/-- The entries of the heap, from the greatest on, are the events to come. -/
structure Represents (h : EventHeap ε) (q : EventQueue ε) : Prop where
  now : h.now = q.now
  order : ∃ es : List (Entry ε), es.Perm h.entries ∧ es.Pairwise Entry.Before ∧ es.map Entry.timed = q.pending ∧
    ∀ e ∈ es, e.number < h.number

variable {k : GreatestFirst ε} {h : EventHeap ε} {q : EventQueue ε} {c : Call ε}

namespace Represents

/-- The greatest entry is the next event. -/
theorem pop? (hr : Represents h q) :
    k.pop? h.entries = none ∧ q.pending = [] ∨
      ∃ e rest tail, k.pop? h.entries = some (e, rest) ∧ q.pending = e.timed :: tail ∧
        Represents { h with now := e.tick, entries := rest } { q with now := e.tick, pending := tail } := by
  obtain ⟨hnow, es, hperm, hbefore, hmap, hnumber⟩ := hr
  cases hpop : k.pop? h.entries with
  | none =>
    have hnil : es = [] := by
      rw [k.eq_nil_of_pop? hpop] at hperm
      exact hperm.eq_nil
    exact .inl ⟨rfl, by rw [← hmap, hnil]; rfl⟩
  | some x =>
    obtain ⟨e, rest⟩ := x
    have hgreatest := k.greatest hpop
    have hentries := hperm.trans (k.perm_of_pop? hpop)
    cases es with
    | nil => exact absurd hentries.symm.eq_nil (List.cons_ne_nil _ _)
    | cons a tail =>
      obtain ⟨ha, htail⟩ := List.pairwise_cons.mp hbefore
      have hae : a = e := by
        rcases List.mem_cons.mp (hentries.mem_iff.mpr (List.mem_cons_self ..)) with he | he
        · exact he.symm
        · exact absurd (hgreatest a (hperm.mem_iff.mp (List.mem_cons_self ..))) (ha e he).not_le
      subst hae
      refine .inr ⟨a, rest, tail.map Entry.timed, rfl, hmap.symm, rfl, tail, hentries.cons_inv, htail, rfl, ?_⟩
      exact fun x hx => hnumber x (List.mem_cons_of_mem a hx)

theorem next?_eq (hr : Represents h q) : h.next? k = q.next? := by
  unfold EventHeap.next? EventQueue.next?
  rcases hr.pop? (k := k) with ⟨hpop, hp⟩ | ⟨e, rest, tail, hpop, hp, -⟩
  · rw [hpop, hp]
    rfl
  · rw [hpop, hp]
    rfl

/-- A new entry has the greatest number, so it comes behind all that are not later. -/
theorem place (hr : Represents h q) (event : ε) (tick : Tick) :
    Represents { h with number := h.number + 1, entries := k.push ⟨tick, h.number, event⟩ h.entries }
      { q with pending := place tick event q.pending } := by
  obtain ⟨hnow, es, hperm, hbefore, hmap, hnumber⟩ := hr
  have hsorted : q.pending.Pairwise fun a b => a.1 ≤ b.1 :=
    hmap ▸ List.pairwise_map.mpr (hbefore.imp Entry.Before.tick_le)
  obtain ⟨l, r, hsplit, hl, hlater⟩ := exists_split hsorted tick
  obtain ⟨front, back, rfl, rfl, rfl⟩ := List.map_eq_append_iff.mp (hmap.trans hsplit)
  obtain ⟨hfront, hback, hcross⟩ := List.pairwise_append.mp hbefore
  have hnew : (front ++ ⟨tick, h.number, event⟩ :: back).Perm (k.push ⟨tick, h.number, event⟩ h.entries) :=
    List.perm_middle.trans ((hperm.cons _).trans (k.push_perm _ _).symm)
  refine ⟨hnow, front ++ ⟨tick, h.number, event⟩ :: back, hnew, ?_, ?_, fun e he => ?_⟩
  · refine List.pairwise_append.mpr ⟨hfront, List.pairwise_cons.mpr ⟨fun e he => ?_, hback⟩, fun e he => ?_⟩
    · exact .inl (hlater e.timed (List.mem_map_of_mem he))
    · refine List.forall_mem_cons.mpr ⟨?_, hcross e he⟩
      rcases Nat.lt_or_eq_of_le (hl e.timed (List.mem_map_of_mem he)) with hlt | heq
      · exact .inl hlt
      · exact .inr ⟨heq, hnumber e (List.mem_append_left _ he)⟩
  · rw [hsplit, place_append hl, place_of_lt hlater, List.map_append, List.map_cons]
    rfl
  · rcases List.mem_append.mp he with he | he
    · exact Nat.lt_succ_of_lt (hnumber e (List.mem_append_left _ he))
    · rcases List.mem_cons.mp he with rfl | he
      · exact Nat.lt_succ_self _
      · exact Nat.lt_succ_of_lt (hnumber e (List.mem_append_right _ he))

theorem pop (hr : Represents h q) : SameWith Represents (h.pop k) (q.taken q.pop?) := by
  unfold EventHeap.pop EventQueue.pop?
  rcases hr.pop? (k := k) with ⟨hpop, hp⟩ | ⟨e, rest, tail, hpop, hp, hrest⟩
  · rw [hpop, hp]
    exact ⟨rfl, hr⟩
  · rw [hpop, hp]
    exact ⟨rfl, hrest⟩

theorem schedule (hr : Represents h q) (event : ε) (tick : Tick) :
    Alike Represents (h.schedule k event tick) (q.schedule event tick) := by
  unfold EventHeap.schedule EventQueue.schedule
  by_cases hle : q.now ≤ tick
  · rw [if_pos (hr.now ▸ hle), if_pos hle]
    exact .ok (hr.place event tick)
  · rw [if_neg (hr.now ▸ hle), if_neg hle, hr.now]
    exact .error _

theorem advanceTo (hr : Represents h q) (tick : Tick) :
    Alike Represents (h.advanceTo k tick) (q.advanceTo tick) := by
  have hlater : Represents { h with now := tick } { q with now := tick } := ⟨rfl, hr.order⟩
  unfold EventHeap.advanceTo EventQueue.advanceTo
  rw [hr.next?_eq, hr.now]
  by_cases hle : q.now ≤ tick
  · simp only [hle]
    cases q.next? with
    | none => exact .ok hlater
    | some next =>
      by_cases hnext : tick ≤ next
      · simp only [hnext]
        exact .ok hlater
      · simp only [hnext]
        exact .error _
  · simp only [hle]
    exact .error _

theorem perform (hr : Represents h q) (c : Call ε) : Alike (SameWith Represents) (h.perform k c) (q.perform c) := by
  cases c with
  | schedule event tick => exact (hr.schedule event tick).bind fun _ _ h' => .ok ⟨rfl, h'⟩
  | advanceTo tick => exact (hr.advanceTo tick).bind fun _ _ h' => .ok ⟨rfl, h'⟩
  | pop => exact .ok hr.pop
  | popDue tick =>
    simp only [EventHeap.perform, EventQueue.perform, popDue?, hr.next?_eq]
    cases q.next? with
    | none => exact .ok ⟨rfl, hr⟩
    | some next =>
      by_cases hle : next ≤ tick
      · simp only [if_pos hle]
        exact .ok hr.pop
      · simp only [if_neg hle]
        exact .ok ⟨rfl, hr⟩

theorem run (hr : Represents h q) (calls : List (Call ε)) :
    Alike (SameWith Represents) (EventHeap.run k calls h) (run calls q) := by
  induction calls generalizing h q with
  | nil => exact .ok ⟨rfl, hr⟩
  | cons c rest ih =>
    refine (hr.perform c).bind fun x y hxy => ?_
    obtain ⟨hevent, h'⟩ := hxy
    refine (ih h').bind fun x' y' hxy' => ?_
    obtain ⟨hevents, h''⟩ := hxy'
    exact .ok ⟨by rw [hevent, hevents], h''⟩

end Represents

/-! ## Stable queues -/

/-- What the calls of a queue do after some events were scheduled and some popped. -/
structure Stable (q : EventQueue ε) (all popped : List (Tick × ε)) : Prop where
  /-- Every event was popped or is to come, and those that were popped came first in the
  stable order. -/
  order : popped ++ q.pending = inOrder all
  now : (∀ x ∈ popped, x.1 ≤ q.now) ∧ ∀ x ∈ q.pending, q.now ≤ x.1
  /-- The earliest event is popped, of several such ones the one that was scheduled first, and
  time moves to it. -/
  pop : q.pending = [] ∧ q.perform .pop = .ok (none, q) ∨
    ∃ tick event rest later, q.pending = (tick, event) :: rest ∧
      q.perform .pop = .ok (some (tick, event), { q with now := tick, pending := rest }) ∧
      (∀ x ∈ rest, tick ≤ x.1) ∧
      all.filter (·.1 = tick) = popped.filter (·.1 = tick) ++ (tick, event) :: later
  /-- An event that is due is popped, and nothing happens if none is. -/
  popDue : ∀ tick, q.perform (.popDue tick) =
    if ∃ x ∈ q.pending, x.1 ≤ tick then q.perform .pop else .ok (none, q)
  schedule : ∀ event tick, (q.schedule event tick).isOk ↔ q.now ≤ tick
  advanceTo : ∀ tick, (q.advanceTo tick).isOk ↔ q.now ≤ tick ∧ ∀ x ∈ q.pending, tick ≤ x.1
  monotone : ∀ c x r, q.perform c = .ok (x, r) → q.now ≤ r.now
  /-- Without further events the queue can be emptied. -/
  drained : ∃ r, run (List.replicate q.size .pop) q = .ok (q.pending, r) ∧ r.pending = []

theorem run_replicate_pop (q : EventQueue ε) :
    ∃ r, run (List.replicate q.size .pop) q = .ok (q.pending, r) ∧ r.pending = [] := by
  obtain ⟨clock, now, pending⟩ := q
  induction pending generalizing now with
  | nil => exact ⟨_, rfl, rfl⟩
  | cons e rest ih =>
    obtain ⟨r, hr, hnil⟩ := ih e.1
    refine ⟨r, ?_, hnil⟩
    exact Sim.bind_eq_ok.mpr ⟨(some e, ⟨clock, e.1, rest⟩), rfl, Sim.bind_eq_ok.mpr ⟨(rest, r), hr, rfl⟩⟩

theorem isOk_schedule (q : EventQueue ε) (event : ε) (tick : Tick) : (q.schedule event tick).isOk ↔ q.now ≤ tick := by
  unfold schedule
  split
  · exact iff_of_true rfl ‹_›
  · exact iff_of_false nofun ‹_›

namespace Consistent

variable {all popped : List (Tick × ε)}

theorem isOk_advanceTo (h : q.Consistent all popped) (tick : Tick) :
    (q.advanceTo tick).isOk ↔ q.now ≤ tick ∧ ∀ x ∈ q.pending, tick ≤ x.1 := by
  constructor
  · intro hok
    obtain ⟨r, hr⟩ := Sim.exists_eq_ok hok
    obtain ⟨hle, hnext, -⟩ := advanceTo_eq_ok_iff.mp hr
    exact ⟨hle, h.le_of_next hnext⟩
  · rintro ⟨hle, hlater⟩
    have hnext : ∀ next ∈ q.next?, tick ≤ next := by
      intro next hn
      obtain ⟨x, hx, rfl⟩ := Option.map_eq_some_iff.mp hn
      exact hlater x (List.mem_of_mem_head? hx)
    rw [advanceTo_eq_ok hle hnext]
    rfl

/-- An event is due if the next one is. -/
theorem perform_popDue (h : q.Consistent all popped) (tick : Tick) :
    q.perform (.popDue tick) = if ∃ x ∈ q.pending, x.1 ≤ tick then q.perform .pop else .ok (none, q) := by
  have hdue : (∃ x ∈ q.pending.head?, x.1 ≤ tick) ↔ ∃ x ∈ q.pending, x.1 ≤ tick := by
    constructor
    · rintro ⟨x, hx, hle⟩
      exact ⟨x, List.mem_of_mem_head? hx, hle⟩
    · rintro ⟨x, hx, hle⟩
      have hsorted := h.pairwise_pending
      cases hp : q.pending with
      | nil => simp [hp] at hx
      | cons e rest =>
        rw [hp] at hx hsorted
        refine ⟨e, rfl, ?_⟩
        rcases List.mem_cons.mp hx with rfl | hx
        · exact hle
        · exact Nat.le_trans ((List.pairwise_cons.mp hsorted).1 x hx) hle
  show Except.ok (q.taken (q.popDue? tick)) = _
  rw [popDue?_eq]
  by_cases he : ∃ x ∈ q.pending, x.1 ≤ tick
  · rw [if_pos (hdue.mpr he), if_pos he]
    rfl
  · rw [if_neg (fun h => he (hdue.mp h)), if_neg he]
    rfl

theorem stable (h : q.Consistent all popped) : q.Stable all popped where
  order := h.order
  now := ⟨h.past, h.future⟩
  pop := by
    cases hp : q.pending with
    | nil =>
      refine .inl ⟨rfl, ?_⟩
      show Except.ok (q.taken q.pop?) = _
      rw [pop?, hp]
      rfl
    | cons e rest =>
      have hsorted := h.pairwise_pending
      rw [hp] at hsorted
      refine .inr ⟨e.1, e.2, rest, rest.filter (·.1 = e.1), rfl, ?_, (List.pairwise_cons.mp hsorted).1, ?_⟩
      · show Except.ok (q.taken q.pop?) = _
        rw [pop?, hp]
        rfl
      · rw [← filter_inOrder all, ← h.order, hp, List.filter_append]
        simp
  popDue := h.perform_popDue
  schedule := q.isOk_schedule
  advanceTo := h.isOk_advanceTo
  monotone c x r hr := (h.step hr).2
  drained := q.run_replicate_pop

end Consistent

/-- After any calls of a queue that was empty, the calls go the way of those of a heap that gives out its
greatest entry, and the queue is stable. -/
theorem run_stable (clock : Clock) (calls : List (Call ε)) :
    (∀ k : GreatestFirst ε,
      Alike (SameWith fun h q => h.now = q.now) (EventHeap.run k calls {}) (run calls (empty clock))) ∧
      ∀ popped q, run calls (empty clock) = .ok (popped, q) → q.Stable (scheduled calls) popped := by
  refine ⟨fun k => ?_, fun popped q hr => ((consistent_empty clock).run hr).stable⟩
  have hr : Represents ({} : EventHeap ε) (empty clock) := ⟨rfl, [], .refl _, .nil, rfl, by simp⟩
  exact (hr.run calls).mono fun x y hxy => ⟨hxy.1, hxy.2.now⟩

/-- The theorem where one event is scheduled while others of its time are being popped. -/
theorem run_stable_of_equal_times :
    let calls : List (Call Nat) :=
      [.schedule 1 10, .schedule 2 10, .schedule 0 5, .pop, .popDue 9, .advanceTo 10, .popDue 10, .schedule 3 10]
    ∃ popped q h, run calls (empty ⟨500⟩) = .ok (popped, q) ∧ EventHeap.run default calls {} = .ok (popped, h) ∧
      popped = [(5, 0), (10, 1)] ∧ q.Stable (scheduled calls) popped := by
  intro calls
  have hrun : ∃ q, run calls (empty ⟨500⟩) = .ok ([(5, 0), (10, 1)], q) := ⟨_, rfl⟩
  obtain ⟨q, hq⟩ := hrun
  obtain ⟨hheap, hstable⟩ := run_stable ⟨500⟩ calls
  have halike := (hheap default).symm
  rw [hq] at halike
  obtain ⟨⟨popped, h⟩, hh, rfl, -⟩ := halike.exists_of_ok
  exact ⟨_, q, h, hq, hh, rfl, hstable _ q hq⟩

end EventQueue

end CacheSim
