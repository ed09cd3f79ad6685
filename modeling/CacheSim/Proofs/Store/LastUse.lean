import CacheSim.Proofs.Store.BoundedMap
import CacheSim.Proofs.Store.Queues

/-!
# The least recently used block goes

When a block was last inserted or touched, in the order of the calls
(`lastUse`).  The queue at a place of an LRU store is in this order
(`Ranks.recent_step`), so the line that an insertion takes out is the one whose
block was used before those of all others at its place.  Lookups and accesses do
not use a block, and without them the same blocks go.

`run_evicts_least_recent` says this of all runs from an empty store.
-/

namespace CacheSim

namespace Store

variable {s t : Store} {i b : Nat} {q : LruQueue} {c : Call} {reply : Reply} {calls past : List Call}

/-- The block that a call uses. -/
def Call.uses? : Call → Option Nat
  | .insert addr _ | .touch addr => some addr
  | .lookup _ | .access _ => none

/-- The number of the last call that uses a block, counted from one, and zero if
there is none. -/
def lastUse (calls : List Call) (b : Nat) : Nat :=
  calls.length - calls.reverse.findIdx fun c => c.uses? = some b

/-- The block that an insertion took out, which is none if there was room. -/
def Reply.evicted? : Reply → Option (Option Nat)
  | .victim line => some (line.map (·.tag))
  | .touched | .found _ | .accessed _ => none

/-- The blocks that insertions took out, in order. -/
def evicted (replies : List Reply) : List (Option Nat) :=
  replies.filterMap Reply.evicted?

theorem evicted_cons (reply : Reply) (replies : List Reply) :
    evicted (reply :: replies) = reply.evicted?.toList ++ evicted replies := by
  rw [evicted, evicted, List.filterMap_cons]
  cases reply.evicted? <;> rfl

theorem lastUse_concat (calls : List Call) (c : Call) (b : Nat) :
    lastUse (calls ++ [c]) b = if c.uses? = some b then calls.length + 1 else lastUse calls b := by
  rw [lastUse, List.reverse_append, List.reverse_singleton, List.singleton_append, List.findIdx_cons, List.length_append,
    List.length_singleton]
  by_cases h : c.uses? = some b
  · simp [h]
  · simp [h, lastUse]

theorem lastUse_le (calls : List Call) (b : Nat) : lastUse calls b ≤ calls.length :=
  Nat.sub_le ..

/-- Blocks that were used in this order, the last use first. -/
structure Recent (calls : List Call) (tags : List Nat) : Prop where
  used : ∀ b ∈ tags, 0 < lastUse calls b
  order : tags.Pairwise fun a b => lastUse calls b < lastUse calls a

theorem recent_nil (calls : List Call) : Recent calls [] :=
  ⟨by simp, .nil⟩

/-- A call that uses none of the blocks leaves their order. -/
theorem Recent.concat {tags : List Nat} (h : Recent calls tags) (hc : ∀ b ∈ tags, c.uses? ≠ some b) :
    Recent (calls ++ [c]) tags where
  used b hb := by
    rw [lastUse_concat, if_neg (hc b hb)]
    exact h.used b hb
  order := h.order.imp_of_mem fun {a b} ha hb hab => by
    rw [lastUse_concat, lastUse_concat, if_neg (hc a ha), if_neg (hc b hb)]
    exact hab

theorem Recent.sublist {tags some : List Nat} (h : Recent calls tags) (hs : some.Sublist tags) : Recent calls some :=
  ⟨fun b hb => h.used b (hs.subset hb), h.order.sublist hs⟩

/-- A block that is used now comes to the front. -/
theorem Recent.promote {tags : List Nat} (h : Recent calls tags) (hc : c.uses? = some b) (room : Nat) :
    Recent (calls ++ [c]) (LruQueue.promote room b tags) := by
  have hothers : Recent (calls ++ [c]) (tags.filter (· ≠ b)) := by
    refine (h.sublist List.filter_sublist).concat fun a ha hca => ?_
    obtain rfl := Option.some.inj (hc.symm.trans hca)
    simp at ha
  have hnow : lastUse (calls ++ [c]) b = calls.length + 1 := by rw [lastUse_concat, if_pos hc]
  refine Recent.sublist ⟨List.forall_mem_cons.mpr ⟨by omega, hothers.used⟩, ?_⟩ (List.take_sublist room _)
  refine List.pairwise_cons.mpr ⟨fun a ha => ?_, hothers.order⟩
  have hne : c.uses? ≠ some a := by
    rintro hca
    obtain rfl := Option.some.inj (hc.symm.trans hca)
    simp at ha
  have := lastUse_le calls a
  rw [hnow, lastUse_concat, if_neg hne]
  omega

theorem Recent.reorder {tags : List Nat} (h : Recent calls tags) (c : Call) (room : Nat) :
    Recent (calls ++ [c]) (c.reorder room tags) := by
  cases c with
  | insert addr data => exact h.promote rfl room
  | touch addr =>
    rw [Call.reorder]
    split
    · exact h.promote rfl room
    · rename_i hn
      refine h.concat fun b hb hc => ?_
      obtain rfl := Option.some.inj hc
      exact hn hb
  | lookup addr => exact h.concat fun b _ => nofun
  | access p => exact h.concat fun b _ => nofun

theorem Call.block_of_uses {size : Nat} (h : c.uses? = some b) : c.block size = b := by
  cases c with
  | insert addr data => exact Option.some.inj h
  | touch addr => exact Option.some.inj h
  | lookup addr => cases h
  | access p => cases h

namespace Ranks

/-- The queue stays in the order of the last uses. -/
theorem recent_step (h : s.Ranks i q) (hq : Recent past q.tags) (hr : (s.perform c).result = .ok (reply, t)) :
    s.LruLike t ∧ ∃ q', t.Ranks i q' ∧ Recent (past ++ [c]) q'.tags := by
  obtain ⟨hlike, q', hranks, htags⟩ := h.step hr
  refine ⟨hlike, q', hranks, ?_⟩
  rw [htags]
  by_cases hi : s.placeOf (c.block s.lineSize) = i
  · rw [if_pos hi]
    exact hq.reorder c s.room
  · rw [if_neg hi]
    refine hq.concat fun b hb hc => hi ?_
    obtain ⟨l, hl, rfl⟩ := List.mem_map.mp hb
    rw [Call.block_of_uses hc]
    exact h.placed l hl

theorem recent_run (h : s.Ranks i q) (hq : Recent past q.tags) {replies : List Reply}
    (hr : (run calls s).result = .ok (replies, t)) :
    s.LruLike t ∧ ∃ q', t.Ranks i q' ∧ Recent (past ++ calls) q'.tags := by
  induction calls generalizing s q past replies with
  | nil =>
    obtain ⟨-, rfl⟩ := Prod.mk.inj (Except.ok.inj hr)
    exact ⟨.refl h.lru, q, h, (List.append_nil past).symm ▸ hq⟩
  | cons c rest ih =>
    obtain ⟨reply, u, tail, hu, hrest, -⟩ := run_cons_eq_ok.mp hr
    obtain ⟨hlike, q', hq', hrecent⟩ := h.recent_step hq hu
    obtain ⟨hlike', q'', hq'', hrecent'⟩ := ih hq' hrecent hrest
    rw [List.append_assoc] at hrecent'
    exact ⟨hlike.trans hlike', q'', hq'', hrecent'⟩

/-- The victim of an insertion was used before all other lines of its place. -/
theorem victim_least (h : s.Ranks (s.placeOf b) q) (hq : Recent past q.tags) {data : Bytes} {v : Line}
    (hr : (s.insert b data).result = .ok (some v, t)) :
    v ∈ s.linesAt (s.placeOf b) ∧ 0 < lastUse past v.tag ∧
      ∀ l ∈ s.linesAt (s.placeOf b), l ≠ v → lastUse past v.tag < lastUse past l.tag := by
  have hn : s.lookup b = none := by
    by_contra hn
    rw [h.lru.insert_of_resident hn] at hr
    cases hr
  obtain ⟨victim, rest, u, hu, -, -, hperm, -, hleast, -⟩ := h.lru.insert (h.ranked.length_eq ▸ h.room) hn data
  obtain ⟨rfl, rfl⟩ := Prod.mk.inj (Except.ok.inj (hu.symm.trans hr))
  have hv : v ∈ s.linesAt (s.placeOf b) := hperm.mem_iff.mpr (List.mem_cons_self ..)
  refine ⟨hv, hq.used _ (h.ranked.perm_tags.mem_iff.mp (List.mem_map_of_mem hv)), fun l hl hne => ?_⟩
  cases hleast with
  | full hfull hleast =>
    have hlt : v.lastAccess < l.lastAccess := by
      refine Nat.lt_of_le_of_ne (hleast l hl) fun he => hne ?_
      exact (List.inj_on_of_nodup_map h.ranked.nodup_lastAccess hl hv he.symm)
    exact h.ranked.of_lt hv hl hlt hq.order

end Ranks

/-! ## Calls that use no block -/

theorem Reply.evicted?_timeless (reply : Reply) : reply.timeless.evicted? = reply.evicted? := by
  cases reply with
  | victim line => cases line <;> rfl
  | touched => rfl
  | found line => rfl
  | accessed p => rfl

/-- Queues of the same blocks serve the same uses, and the same blocks go. -/
theorem evicted?_of_tags_eq {q q' r : LruQueue} {room size : Nat} (hc : c.uses?.isSome) (hq : q.tags = q'.tags)
    (hr : q.perform room size c = .ok (reply, r)) :
    ∃ reply' r', q'.perform room size c = .ok (reply', r') ∧ reply'.evicted? = reply.evicted? := by
  cases c with
  | insert addr data =>
    rw [LruQueue.perform] at hr
    split at hr
    · rename_i hn
      have hn' : Directory.ofLines q' addr = none :=
        LruQueue.ofLines_eq_none_iff_tags.mpr (hq ▸ LruQueue.ofLines_eq_none_iff_tags.mp hn)
      obtain ⟨rfl, -⟩ := Prod.mk.inj (Except.ok.inj hr)
      refine ⟨_, _, if_pos hn', ?_⟩
      have hlast : ∀ p : LruQueue, p[room - 1]?.map (·.tag) = p.tags[room - 1]? := fun p => List.getElem?_map.symm
      simp only [Reply.evicted?, hlast, hq]
    · cases hr
  | touch addr =>
    obtain ⟨rfl, -⟩ := Prod.mk.inj (Except.ok.inj hr)
    exact ⟨.touched, _, rfl, rfl⟩
  | lookup addr => cases hc
  | access p => cases hc

/-- LRU stores with the same blocks in their queues. -/
structure SameBlocks (s t : Store) : Prop where
  like : s.LruLike t
  queues : ∀ i < s.places, ∃ q r : LruQueue, s.Ranks i q ∧ t.Ranks i r ∧ q.tags = r.tags

namespace SameBlocks

variable {s' t' : Store} {reply' : Reply}

/-- The same blocks are resident. -/
theorem lookup_eq_none_iff (h : s.SameBlocks t) (b : Nat) : s.lookup b = none ↔ t.lookup b = none := by
  obtain ⟨q, r, hq, hr, htags⟩ := h.queues _ (s.placeOf_lt b)
  rw [hq.lookup_eq_none_iff rfl, hr.lookup_eq_none_iff (congrFun h.like.placeOf b), htags]

/-- The same call of both leaves the same blocks in their queues. -/
theorem step (h : s.SameBlocks s') (hr : (s.perform c).result = .ok (reply, t))
    (hr' : (s'.perform c).result = .ok (reply', t')) : t.SameBlocks t' := by
  have hqueues : ∀ i < s.places, s.LruLike t ∧ s'.LruLike t' ∧ ∃ q r : LruQueue, t.Ranks i q ∧ t'.Ranks i r ∧ q.tags = r.tags := by
    intro i hi
    obtain ⟨q, r, hq, hr₀, htags⟩ := h.queues i hi
    obtain ⟨hlike, q₁, hq₁, htags₁⟩ := hq.step hr
    obtain ⟨hlike', r₁, hr₁, htags₁'⟩ := hr₀.step hr'
    refine ⟨hlike, hlike', q₁, r₁, hq₁, hr₁, ?_⟩
    rw [htags₁, htags₁', htags, h.like.placeOf, h.like.lineSize, h.like.room]
  obtain ⟨hlike, hlike', -⟩ := hqueues _ (s.placeOf_lt 0)
  exact ⟨hlike.euclidean (h.like.trans hlike'), fun i hi => (hqueues i (hlike.places ▸ hi)).2.2⟩

/-- A call that uses a block is served by both, and the same block goes. -/
theorem use (h : s.SameBlocks s') (hc : c.uses?.isSome) (hr : (s.perform c).result = .ok (reply, t)) :
    ∃ reply' t', (s'.perform c).result = .ok (reply', t') ∧ reply'.evicted? = reply.evicted? ∧ t.SameBlocks t' := by
  obtain ⟨q, r, hq, hr', htags⟩ := h.queues _ (s.placeOf_lt (c.block s.lineSize))
  have halike := hq.perform rfl
  rw [hr] at halike
  obtain ⟨⟨qreply, q₁⟩, hq₁, hserves⟩ := halike.exists_of_ok
  obtain ⟨rreply, r₁, hr₁, hevicted⟩ := evicted?_of_tags_eq hc htags hq₁
  have hplace : s'.placeOf (c.block s'.lineSize) = s.placeOf (c.block s.lineSize) := by
    rw [h.like.placeOf, h.like.lineSize]
  have halike' := (hr'.perform hplace).symm
  rw [h.like.room, h.like.lineSize, hr₁] at halike'
  obtain ⟨⟨reply', t'⟩, ht', hserves'⟩ := halike'.exists_of_ok
  have hq₀ : reply.timeless = qreply := hserves.reply
  have hr₀ : reply'.timeless = rreply := hserves'.reply
  refine ⟨reply', t', ht', ?_, h.step hr ht'⟩
  rw [← reply'.evicted?_timeless, hr₀, hevicted, ← hq₀, reply.evicted?_timeless]

/-- A call that uses no block takes none out, and leaves the order. -/
theorem skip (h : s.SameBlocks s') (hc : ¬c.uses?.isSome) (hr : (s.perform c).result = .ok (reply, t)) :
    reply.evicted? = none ∧ t.SameBlocks s' := by
  have hreorder : ∀ room tags, c.reorder room tags = tags := by
    intro room tags
    cases c with
    | insert addr data => exact absurd rfl hc
    | touch addr => exact absurd rfl hc
    | lookup addr => rfl
    | access p => rfl
  have hqueues : ∀ i < s.places, s.LruLike t ∧ ∃ q r : LruQueue, t.Ranks i q ∧ s'.Ranks i r ∧ q.tags = r.tags := by
    intro i hi
    obtain ⟨q, r, hq, hr₀, htags⟩ := h.queues i hi
    obtain ⟨hlike, q₁, hq₁, htags₁⟩ := hq.step hr
    rw [hreorder, ite_self] at htags₁
    exact ⟨hlike, q₁, r, hq₁, hr₀, htags₁.trans htags⟩
  obtain ⟨hlike, -⟩ := hqueues _ (s.placeOf_lt 0)
  refine ⟨?_, hlike.euclidean h.like, fun i hi => (hqueues i (hlike.places ▸ hi)).2⟩
  cases c with
  | insert addr data => exact absurd rfl hc
  | touch addr => exact absurd rfl hc
  | lookup addr =>
    obtain ⟨rfl, -⟩ := Prod.mk.inj (Except.ok.inj hr)
    rfl
  | access p =>
    simp only [perform, Sim.result_bind] at hr
    obtain ⟨x, -, hr⟩ := Sim.bind_eq_ok.mp hr
    cases x with
    | none =>
      obtain ⟨rfl, -⟩ := Prod.mk.inj (Except.ok.inj hr)
      rfl
    | some x =>
      obtain ⟨rfl, -⟩ := Prod.mk.inj (Except.ok.inj hr)
      rfl

/-- Without the calls that use no block, the same blocks go. -/
theorem run (h : s.SameBlocks s') {replies : List Reply} (hr : (run calls s).result = .ok (replies, t)) :
    ∃ replies' t', (run (calls.filter (·.uses?.isSome)) s').result = .ok (replies', t') ∧
      evicted replies' = evicted replies ∧ t.SameBlocks t' := by
  induction calls generalizing s s' replies with
  | nil =>
    obtain ⟨rfl, rfl⟩ := Prod.mk.inj (Except.ok.inj hr)
    exact ⟨[], s', rfl, rfl, h⟩
  | cons c rest ih =>
    obtain ⟨reply, u, tail, hu, hrest, rfl⟩ := run_cons_eq_ok.mp hr
    by_cases hc : c.uses?.isSome
    · obtain ⟨reply', u', hu', hevicted, hsame⟩ := h.use hc hu
      obtain ⟨tail', v, hv, hevicted', hsame'⟩ := ih hsame hrest
      rw [List.filter_cons_of_pos (p := fun c : Call => c.uses?.isSome) hc]
      refine ⟨reply' :: tail', v, run_cons_eq_ok.mpr ⟨reply', u', tail', hu', hv, rfl⟩, ?_, hsame'⟩
      rw [evicted_cons, evicted_cons, hevicted, hevicted']
    · obtain ⟨hnone, hsame⟩ := h.skip hc hu
      obtain ⟨tail', v, hv, hevicted, hsame'⟩ := ih hsame hrest
      rw [List.filter_cons_of_neg (p := fun c : Call => c.uses?.isSome) hc]
      exact ⟨tail', v, hv, by rw [evicted_cons, hnone, hevicted]; rfl, hsame'⟩

end SameBlocks

/-! ## Runs -/

/-- After any calls of an LRU store that was empty and has not one slot for every
block, no two lines of a place were used at the same time, and the line that the
next insertion takes out is the one at the place of the new block that was used
before all others.  Without the lookups and accesses the same blocks go.  Calls
that keep the rules are answered. -/
theorem run_evicts_least_recent {g : Geometry} {gen : Generator} (h₀ : ofGeometry? g gen = .ok s)
    (hp : g.policy = .lru) (hk : g.kind ≠ .directMapped) (calls : List Call) :
    (s.Admits calls → (run calls s).result.isOk) ∧
      ∀ replies t, (run calls s).result = .ok (replies, t) →
        (∀ i < t.places, ((t.linesAt i).map (·.lastAccess)).Nodup) ∧
        (∀ addr data victim u, (t.insert addr data).result = .ok (some victim, u) →
          victim ∈ t.linesAt (t.placeOf addr) ∧ 0 < lastUse calls victim.tag ∧
          ∀ l ∈ t.linesAt (t.placeOf addr), l ≠ victim → lastUse calls victim.tag < lastUse calls l.tag) ∧
        ∃ replies' t', (run (calls.filter (·.uses?.isSome)) s).result = .ok (replies', t') ∧
          evicted replies' = evicted replies ∧ ∀ b, t.lookup b = none ↔ t'.lookup b = none := by
  have hnew : ∀ i < s.places, s.Ranks i [] := fun i hi => ranks_of_geometry h₀ hp hk hi
  have hlru : s.Lru := (hnew _ (s.placeOf_lt 0)).lru
  refine ⟨fun hadmits => ?_, fun replies t hr => ?_⟩
  · obtain ⟨hv, -, hempty, -⟩ := valid_ofGeometry? h₀
    obtain ⟨replies, t, hr, -⟩ := hv.run_eq_ok (timely_of_empty hempty) hadmits
    rw [hr]
    rfl
  have hqueue : ∀ i < t.places, ∃ q, t.Ranks i q ∧ Recent calls q.tags := by
    intro i hi
    obtain ⟨hlike, -⟩ := (hnew _ (s.placeOf_lt 0)).recent_run (recent_nil []) hr
    exact ((hnew i (hlike.places ▸ hi)).recent_run (recent_nil []) hr).2
  refine ⟨fun i hi => ?_, fun addr data victim u hu => ?_, ?_⟩
  · obtain ⟨q, hq, -⟩ := hqueue i hi
    exact hq.ranked.nodup_lastAccess
  · obtain ⟨q, hq, hrecent⟩ := hqueue _ (t.placeOf_lt addr)
    exact hq.victim_least hrecent hu
  · have hsame : s.SameBlocks s := ⟨.refl hlru, fun i hi => ⟨[], [], hnew i hi, hnew i hi, rfl⟩⟩
    obtain ⟨replies', t', hr', hevicted, hsame'⟩ := hsame.run hr
    exact ⟨replies', t', hr', hevicted, hsame'.lookup_eq_none_iff⟩

/-- The theorem at a set of two ways, in which the older block was touched again: the
newer one goes, although it was written and looked up since. -/
theorem run_evicts_least_recent_of_touched :
    let calls : List Call := [.insert 0 [1, 2, 3, 4], .insert 12 [5, 6, 7, 8], .touch 0, .access (.write 13 [9] 0),
      .lookup 12, .touch 24]
    ∃ s, ofGeometry? ⟨.setAssociative, 4, 6, 2, 1, .lru⟩ (.seeded 0) = .ok s ∧
      ∃ replies t victim u, (run calls s).result = .ok (replies, t) ∧
        (t.insert 24 [0, 0, 0, 0]).result = .ok (some victim, u) ∧ victim.tag = 12 ∧
        ∀ l ∈ t.linesAt (t.placeOf 24), l ≠ victim → lastUse calls victim.tag < lastUse calls l.tag := by
  intro calls
  have h₀ : ∃ s, ofGeometry? ⟨.setAssociative, 4, 6, 2, 1, .lru⟩ (.seeded 0) = .ok s ∧
      ∃ replies t victim u, (run calls s).result = .ok (replies, t) ∧
        (t.insert 24 [0, 0, 0, 0]).result = .ok (some victim, u) ∧ victim.tag = 12 :=
    ⟨_, rfl, _, _, _, _, rfl, rfl, rfl⟩
  obtain ⟨s, hs, replies, t, victim, u, hr, hu, hv⟩ := h₀
  have hleast := ((run_evicts_least_recent hs rfl (by decide) calls).2 replies t hr).2.1 24 _ victim u hu
  exact ⟨s, hs, replies, t, victim, u, hr, hu, hv, hleast.2.2⟩

end Store

end CacheSim
