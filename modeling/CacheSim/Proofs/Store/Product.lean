import CacheSim.Proofs.Store.BoundedMap
import CacheSim.Proofs.Store.Queues

/-!
# A set associative LRU store is a product

Every set of a set associative LRU store goes its own way, which is that of a
fully associative LRU store with as many lines as the set has ways.  Both are
the same queue (`SameQueue`), and only the calls of blocks of the set move it.

`run_eq_product` says this of all runs from an empty store.
-/

namespace CacheSim

/-- A fully associative cache with as many lines as one set has. -/
def Geometry.oneSet (g : Geometry) : Geometry :=
  { g with kind := .fullyAssociative, lines := g.ways }

namespace Store

variable {s t f u : Store} {i : Nat} {c : Call} {reply : Reply} {calls : List Call} {replies : List Reply}

/-- Whether a call is about a block of the place. -/
def isAt (s : Store) (i : Nat) (c : Call) : Bool :=
  s.placeOf (c.block s.lineSize) = i

/-- The replies to the calls that are chosen, without times. -/
def repliesTo (chosen : Call → Bool) (calls : List Call) (replies : List Reply) : List Reply :=
  ((calls.zip replies).filter (chosen ·.1)).map (·.2.timeless)

theorem repliesTo_cons (chosen : Call → Bool) (c : Call) (calls : List Call) (reply : Reply) (replies : List Reply) :
    repliesTo chosen (c :: calls) (reply :: replies) =
      if chosen c then reply.timeless :: repliesTo chosen calls replies else repliesTo chosen calls replies := by
  rw [repliesTo, List.zip_cons_cons, List.filter_cons]
  split <;> rfl

/-- A place of a store is the same queue as the only place of another one. -/
structure SameQueue (s : Store) (i : Nat) (f : Store) : Prop where
  queue : ∃ q : LruQueue, s.Ranks i q ∧ f.Ranks 0 q
  single : f.places = 1
  room : f.room = s.room
  lineSize : f.lineSize = s.lineSize

/-- Replies that differ in times only, and stores that keep the same queue. -/
structure SameReply (s : Store) (i : Nat) (x y : Reply × Store) : Prop where
  reply : x.1.timeless = y.1.timeless
  like : s.LruLike x.2
  queue : x.2.SameQueue i y.2

theorem LruLike.isAt (h : s.LruLike t) (i : Nat) : t.isAt i = s.isAt i := by
  funext c
  rw [Store.isAt, Store.isAt, h.placeOf, h.lineSize]

namespace SameQueue

theorem placeOf (h : s.SameQueue i f) (addr : Nat) : f.placeOf addr = 0 := by
  have := f.placeOf_lt addr
  rw [h.single] at this
  omega

/-- The same lines, but for their order and times. -/
theorem perm (h : s.SameQueue i f) : ((s.linesAt i).map Line.timeless).Perm ((f.linesAt 0).map Line.timeless) := by
  obtain ⟨q, hs, hf⟩ := h.queue
  exact hs.ranked.perm.trans hf.ranked.perm.symm

/-- A call of a block of the place goes the same way in both stores. -/
theorem perform (h : s.SameQueue i f) (hc : s.isAt i c) :
    Alike (s.SameReply i) (s.perform c).result (f.perform c).result := by
  obtain ⟨q, hs, hf⟩ := h.queue
  have hplace : f.placeOf (c.block f.lineSize) = 0 := h.placeOf _
  have hleft := hs.perform (of_decide_eq_true hc)
  have hright := (hf.perform hplace).symm
  rw [h.room, h.lineSize] at hright
  refine (hleft.trans hright).mono fun x y hxy => ?_
  obtain ⟨z, hx, hy⟩ := hxy
  refine ⟨hx.reply.trans hy.reply.symm, hx.like, ⟨z.2, hx.ranks, hy.ranks⟩, ?_, ?_, ?_⟩
  · rw [hy.like.places, h.single]
  · rw [hy.like.room, h.room, hx.like.room]
  · rw [hy.like.lineSize, h.lineSize, hx.like.lineSize]

/-- A call of another place leaves the lines, so the queue is still the same. -/
theorem elsewhere (h : s.SameQueue i f) (hc : ¬s.isAt i c) (hr : (s.perform c).result = .ok (reply, t)) :
    t.linesAt i = s.linesAt i ∧ s.LruLike t ∧ t.SameQueue i f := by
  obtain ⟨q, hs, hf⟩ := h.queue
  obtain ⟨hlines, hlike, hranks⟩ := hs.elsewhere (fun he => hc (decide_eq_true he)) hr
  refine ⟨hlines, hlike, ⟨q, hranks, hf⟩, h.single, ?_, ?_⟩
  · rw [h.room, hlike.room]
  · rw [h.lineSize, hlike.lineSize]

/-- The calls about blocks of the place have the same replies in both stores. -/
theorem run (h : s.SameQueue i f) (hr : (run calls s).result = .ok (replies, t)) :
    ∃ freplies u, (run (calls.filter (s.isAt i)) f).result = .ok (freplies, u) ∧
      repliesTo (s.isAt i) calls replies = freplies.map Reply.timeless ∧ s.LruLike t ∧ t.SameQueue i u := by
  induction calls generalizing s f replies with
  | nil =>
    obtain ⟨q, hs, -⟩ := h.queue
    obtain ⟨rfl, rfl⟩ := Prod.mk.inj (Except.ok.inj hr)
    exact ⟨[], f, rfl, rfl, .refl hs.lru, h⟩
  | cons c rest ih =>
    obtain ⟨reply, v, tail, hv, hrest, rfl⟩ := run_cons_eq_ok.mp hr
    by_cases hc : s.isAt i c
    · have halike := h.perform hc
      rw [hv] at halike
      obtain ⟨⟨freply, w⟩, hw, hreply, hlike, hqueue⟩ := halike.exists_of_ok
      obtain ⟨ftail, u, hu, htail, hlike', hqueue'⟩ := ih hqueue hrest
      rw [hlike.isAt] at hu htail
      rw [List.filter_cons_of_pos hc]
      refine ⟨freply :: ftail, u, run_cons_eq_ok.mpr ⟨freply, w, ftail, hw, hu, rfl⟩, ?_, hlike.trans hlike', hqueue'⟩
      rw [repliesTo_cons, if_pos hc, htail]
      exact congrArg (· :: _) hreply
    · obtain ⟨-, hlike, hqueue⟩ := h.elsewhere hc hv
      obtain ⟨ftail, u, hu, htail, hlike', hqueue'⟩ := ih hqueue hrest
      rw [hlike.isAt] at hu htail
      rw [List.filter_cons_of_neg hc]
      refine ⟨ftail, u, hu, ?_, hlike.trans hlike', hqueue'⟩
      rw [repliesTo_cons, if_neg hc, htail]

end SameQueue

/-- New stores keep the same queue. -/
theorem sameQueue_of_geometry {g : Geometry} {gen : Generator} (h₀ : ofGeometry? g gen = .ok s)
    (hk : g.kind = .setAssociative) (hp : g.policy = .lru) (gen' : Generator) :
    ∃ f, ofGeometry? g.oneSet gen' = .ok f ∧ ∀ i < s.places, s.SameQueue i f := by
  obtain ⟨hpos, m, -, hline, rfl⟩ := sets_of_geometry h₀ hk
  have hkind : g.oneSet.kind ≠ .directMapped := by
    show CacheKind.fullyAssociative ≠ .directMapped
    decide
  have hf : ofGeometry? g.oneSet gen' =
      .ok ⟨.full { capacity := g.ways, lineSize := g.lineSize, policy := g.policy }, gen'⟩ := by
    simp [Geometry.oneSet, ofGeometry?, FullyAssociative.ofSizes?, hpos]
  refine ⟨_, hf, fun i hi => ⟨⟨[], ?_, ?_⟩, rfl, rfl, hline.symm⟩⟩
  · exact ranks_of_geometry h₀ hp (by rw [hk]; decide) hi
  · exact ranks_of_geometry hf hp hkind Nat.one_pos

theorem lines_eq_linesAt_zero (h : f.places = 1) : f.lines = f.linesAt 0 := by
  rw [f.lines_eq, h]
  simp

/-- After any calls of a set associative LRU store that was empty, every set has the lines, but
for their order and times, of a fully associative LRU store with as many lines as the set has
ways, to which only the calls about blocks of the set were made; the replies to these calls were
the same but for times, and so is that to the next one.  Calls about blocks of other sets leave
the lines of the set as they are.  Calls that keep the rules are answered. -/
theorem run_eq_product {g : Geometry} {gen : Generator} (h₀ : ofGeometry? g gen = .ok s)
    (hk : g.kind = .setAssociative) (hp : g.policy = .lru) (gen' : Generator) (calls : List Call) :
    ∃ f, ofGeometry? g.oneSet gen' = .ok f ∧ (s.Admits calls → (run calls s).result.isOk) ∧
      ∀ replies t, (run calls s).result = .ok (replies, t) →
        (∀ i < s.places, ∃ freplies u, (run (calls.filter (s.isAt i)) f).result = .ok (freplies, u) ∧
          repliesTo (s.isAt i) calls replies = freplies.map Reply.timeless ∧
          ((t.linesAt i).map Line.timeless).Perm (u.lines.map Line.timeless) ∧
          ∀ c, s.isAt i c →
            Alike (fun x y => x.1.timeless = y.1.timeless) (t.perform c).result (u.perform c).result) ∧
        ∀ c reply v, (t.perform c).result = .ok (reply, v) → ∀ i < s.places, ¬s.isAt i c → v.linesAt i = t.linesAt i := by
  obtain ⟨f, hf, hsame⟩ := sameQueue_of_geometry h₀ hk hp gen'
  refine ⟨f, hf, fun hadmits => ?_, fun replies t hr => ⟨fun i hi => ?_, fun c reply v hv i hi hc => ?_⟩⟩
  · obtain ⟨hv, -, hempty, -⟩ := valid_ofGeometry? h₀
    obtain ⟨replies, t, hr, -⟩ := hv.run_eq_ok (timely_of_empty hempty) hadmits
    rw [hr]
    rfl
  · obtain ⟨freplies, u, hu, hreplies, hlike, hqueue⟩ := (hsame i hi).run hr
    refine ⟨freplies, u, hu, hreplies, ?_, fun c hc => ?_⟩
    · rw [lines_eq_linesAt_zero hqueue.single]
      exact hqueue.perm
    · exact (hqueue.perform (hlike.isAt i ▸ hc)).mono fun x y hxy => hxy.reply
  · obtain ⟨_, u, _, _, hlike, hqueue⟩ := (hsame i hi).run hr
    exact (hqueue.elsewhere (hlike.isAt i ▸ hc) hv).1

/-- The theorem at three sets of two ways: the block that was written goes out of the first set,
as it does out of two lines without sets, whatever is done to the second set. -/
theorem run_eq_product_of_three_sets :
    let calls : List Call := [.insert 0 [1, 2, 3, 4], .insert 4 [0, 0, 0, 0], .insert 12 [5, 6, 7, 8],
      .access (.write 13 [9] 0), .touch 0, .touch 4, .insert 24 [0, 0, 0, 0]]
    ∃ s, ofGeometry? ⟨.setAssociative, 4, 6, 2, 1, .lru⟩ (.seeded 0) = .ok s ∧
      ∃ f, ofGeometry? ⟨.fullyAssociative, 4, 2, 2, 1, .lru⟩ (.seeded 0) = .ok f ∧
        ∃ replies t freplies u, (run calls s).result = .ok (replies, t) ∧
          (run (calls.filter (s.isAt 0)) f).result = .ok (freplies, u) ∧
          .victim (some ⟨12, [5, 9, 7, 8], 0, 0⟩) ∈ freplies.map Reply.timeless ∧
          ((t.linesAt 0).map Line.timeless).Perm (u.lines.map Line.timeless) := by
  intro calls
  have hrun : ∃ s, ofGeometry? ⟨.setAssociative, 4, 6, 2, 1, .lru⟩ (.seeded 0) = .ok s ∧ 0 < s.places ∧
      ∃ replies t, (run calls s).result = .ok (replies, t) ∧
        .victim (some ⟨12, [5, 9, 7, 8], 0, 0⟩) ∈ repliesTo (s.isAt 0) calls replies :=
    ⟨_, rfl, by decide, _, _, rfl, by decide⟩
  obtain ⟨s, hs, hplaces, replies, t, hr, hvictim⟩ := hrun
  obtain ⟨f, hf, -, hproduct⟩ := run_eq_product hs rfl rfl (.seeded 0) calls
  obtain ⟨freplies, u, hu, hreplies, hperm, -⟩ := (hproduct replies t hr).1 0 hplaces
  exact ⟨s, hs, f, hf, replies, t, freplies, u, hr, hu, hreplies ▸ hvictim, hperm⟩

end Store

end CacheSim
