import CacheSim.Proofs.Store.Queues
import Mathlib.Data.List.Induction

/-!
# Larger LRU stores hold more

A store is driven by accesses to blocks if each of them touches its block where
it is resident, and inserts it otherwise (`Store.drive`).  Driven from empty, an
LRU store holds at every place the blocks of this place that were accessed last,
as many as there is room for (`Driven`), and of these the larger store has all
that the smaller one has.
-/

namespace CacheSim

/-! ## Recency -/

/-- The blocks of some accesses, each of them once, the one accessed last in front. -/
def recency (blocks : List Nat) : List Nat :=
  blocks.foldl (fun q b => b :: q.filter (· ≠ b)) []

theorem recency_concat (blocks : List Nat) (b : Nat) :
    recency (blocks ++ [b]) = b :: (recency blocks).filter (· ≠ b) := by
  rw [recency, List.foldl_concat, recency]

theorem nodup_recency (blocks : List Nat) : (recency blocks).Nodup := by
  induction blocks using List.reverseRecOn with
  | nil => exact List.nodup_nil
  | append_singleton blocks b ih =>
    rw [recency_concat, List.nodup_cons]
    exact ⟨by simp, ih.filter _⟩

theorem take_filter_take {b : Nat} {tags : List Nat} (h : tags.Nodup) (n : Nat) :
    ((tags.take (n + 1)).filter (· ≠ b)).take n = (tags.filter (· ≠ b)).take n := by
  induction tags generalizing n with
  | nil => rfl
  | cons a tags ih =>
    obtain ⟨ha, htags⟩ := List.nodup_cons.mp h
    by_cases hab : a = b
    · subst hab
      have hno : a ∉ tags.take n := fun hm => ha (List.mem_of_mem_take hm)
      rw [List.take_succ_cons, List.filter_cons_of_neg (by simp), List.filter_cons_of_neg (by simp),
        LruQueue.filter_ne_of_notMem hno, LruQueue.filter_ne_of_notMem ha, List.take_take, Nat.min_self]
    · have hkeep : decide (a ≠ b) = true := decide_eq_true hab
      rw [List.take_succ_cons, List.filter_cons_of_pos (by simpa using hab), List.filter_cons_of_pos (by simpa using hab)]
      cases n with
      | zero => rfl
      | succ n => rw [List.take_succ_cons, List.take_succ_cons, ih htags]

/-- The blocks accessed last stay so when one of them, or another one, is accessed. -/
theorem promote_take_recency {room : Nat} (h : 0 < room) (blocks : List Nat) (b : Nat) :
    LruQueue.promote room b ((recency blocks).take room) = (recency (blocks ++ [b])).take room := by
  obtain ⟨n, rfl⟩ := Nat.exists_eq_succ_of_ne_zero h.ne'
  rw [LruQueue.promote, recency_concat, List.take_succ_cons, List.take_succ_cons,
    take_filter_take (nodup_recency blocks)]

/-- The blocks of a place that were accessed last, as many as there is room for. -/
def latest (room : Nat) (placeOf : Nat → Nat) (blocks : List Nat) (i : Nat) : List Nat :=
  (recency (blocks.filter (placeOf · = i))).take room

/-- Which accesses find their block among those of its place that were accessed last. -/
def hits (room : Nat) (placeOf : Nat → Nat) : List Nat → List Nat → List Bool
  | _, [] => []
  | past, b :: rest => decide (b ∈ latest room placeOf past (placeOf b)) :: hits room placeOf (past ++ [b]) rest

variable {room room' : Nat} {placeOf : Nat → Nat}

theorem latest_concat (h : 0 < room) (blocks : List Nat) (b i : Nat) :
    latest room placeOf (blocks ++ [b]) i =
      if placeOf b = i then LruQueue.promote room b (latest room placeOf blocks i)
      else latest room placeOf blocks i := by
  rw [latest, latest, List.filter_append]
  split
  · rename_i hi
    rw [promote_take_recency h, List.filter_singleton, decide_eq_true hi]
    rfl
  · rename_i hi
    rw [List.filter_singleton, decide_eq_false hi]
    simp

theorem mem_latest_of_le (h : room ≤ room') {blocks : List Nat} {b i : Nat} (hb : b ∈ latest room placeOf blocks i) :
    b ∈ latest room' placeOf blocks i :=
  (List.take_sublist_take_left h).subset hb

/-- Whether one more access finds its block depends on all accesses before it. -/
theorem hits_concat (past blocks : List Nat) (b : Nat) :
    hits room placeOf past (blocks ++ [b]) =
      hits room placeOf past blocks ++ [decide (b ∈ latest room placeOf (past ++ blocks) (placeOf b))] := by
  induction blocks generalizing past with
  | nil => rw [List.append_nil]; rfl
  | cons a rest ih =>
    rw [List.cons_append, hits, hits, ih, List.append_assoc]
    rfl

/-- With more room, no access that was a hit is a miss. -/
theorem hits_of_le (h : room ≤ room') (past blocks : List Nat) :
    List.Forall₂ (fun x y => x = true → y = true) (hits room placeOf past blocks) (hits room' placeOf past blocks) := by
  induction blocks generalizing past with
  | nil => exact .nil
  | cons b rest ih =>
    refine .cons (fun hb => ?_) (ih (past ++ [b]))
    exact decide_eq_true (mem_latest_of_le h (of_decide_eq_true hb))

/-- The second LRU cache has the lines of the first, and maybe more: in all, or in each of its
sets, which are the same. -/
inductive Geometry.Enlarged (g g' : Geometry) : Prop where
  | full (kind : g.kind = .fullyAssociative) (kind' : g'.kind = .fullyAssociative) (lines : g.lines ≤ g'.lines)
  | sets (kind : g.kind = .setAssociative) (kind' : g'.kind = .setAssociative) (lineSize : g.lineSize = g'.lineSize)
    (sets : g.lines / g.ways = g'.lines / g'.ways) (ways : g.ways ≤ g'.ways)

namespace Store

variable {s t : Store} {q : LruQueue} {past : List Nat} {addr : Nat}

/-- The call that an access to a block makes. -/
def use (s : Store) (addr : Nat) (data : Bytes) : Call :=
  if (s.lookup addr).isSome then .touch addr else .insert addr data

/-- Accesses to blocks in order.  Answers which of them found their block resident. -/
def drive : List (Nat × Bytes) → Store → Sim (List Bool × Store)
  | [], s => pure ([], s)
  | (addr, data) :: rest, s => do
    let hit := (s.lookup addr).isSome
    let (_, s) ← s.perform (s.use addr data)
    let (hits, s) ← drive rest s
    return (hit :: hits, s)

theorem block_use (s : Store) (addr : Nat) (data : Bytes) (size : Nat) : (s.use addr data).block size = addr := by
  unfold use
  split <;> rfl

/-- An access is answered. -/
theorem Ranks.perform_use (h : s.Ranks (s.placeOf addr) q) (data : Bytes) :
    ∃ reply t, (s.perform (s.use addr data)).result = .ok (reply, t) := by
  cases hl : s.lookup addr with
  | none =>
    obtain ⟨victim, t, hr, -⟩ := h.insert rfl hl data
    exact ⟨.victim victim, t, by simp [use, hl, Store.perform, hr]⟩
  | some l => exact ⟨.touched, s.touch addr, by simp [use, hl, Store.perform]⟩

/-- An access brings its block to the front. -/
theorem Ranks.reorder_use (h : s.Ranks (s.placeOf addr) q) (data : Bytes) :
    (s.use addr data).reorder s.room q.tags = LruQueue.promote s.room addr q.tags := by
  have hresident : s.lookup addr = none ↔ addr ∉ q.tags := h.lookup_eq_none_iff rfl
  unfold use
  cases hl : s.lookup addr with
  | none => rfl
  | some l =>
    have hmem : addr ∈ q.tags := by
      by_contra hn
      rw [hresident.mpr hn] at hl
      cases hl
    exact if_pos hmem

/-- Every place of an LRU store holds its blocks that were accessed last. -/
def Driven (s : Store) (past : List Nat) : Prop :=
  ∀ i < s.places, ∃ q : LruQueue, s.Ranks i q ∧ q.tags = latest s.room s.placeOf past i

theorem driven_of_geometry {g : Geometry} {gen : Generator} (h : ofGeometry? g gen = .ok s) (hp : g.policy = .lru)
    (hk : g.kind ≠ .directMapped) : s.Driven [] := fun _ hi =>
  ⟨[], ranks_of_geometry h hp hk hi, List.take_nil.symm⟩

namespace Driven

/-- The resident blocks. -/
theorem isSome_lookup (h : s.Driven past) (b : Nat) :
    (s.lookup b).isSome = decide (b ∈ latest s.room s.placeOf past (s.placeOf b)) := by
  obtain ⟨q, hq, htags⟩ := h _ (s.placeOf_lt b)
  have hiff : s.lookup b = none ↔ b ∉ q.tags := hq.lookup_eq_none_iff rfl
  rw [htags] at hiff
  rw [Bool.eq_iff_iff, decide_eq_true_iff, ← Option.not_isNone, Bool.not_eq_true', ← Bool.not_eq_true, Option.isNone_iff_eq_none, hiff,
    not_not]

/-- An access is answered, and brings its block to the front of its place. -/
theorem use (h : s.Driven past) (addr : Nat) (data : Bytes) :
    ∃ reply t, (s.perform (s.use addr data)).result = .ok (reply, t) ∧ s.LruLike t ∧ t.Driven (past ++ [addr]) := by
  obtain ⟨q, hq, -⟩ := h _ (s.placeOf_lt addr)
  obtain ⟨reply, t, hr⟩ := hq.perform_use data
  obtain ⟨hlike, -⟩ := hq.step hr
  refine ⟨reply, t, hr, hlike, fun i hi => ?_⟩
  obtain ⟨r, hranks, htags⟩ := h i (hlike.places ▸ hi)
  obtain ⟨-, r', hranks', htags'⟩ := hranks.step hr
  refine ⟨r', hranks', ?_⟩
  rw [htags', s.block_use, hlike.room, hlike.placeOf, latest_concat hq.lru.room_pos, ← htags]
  by_cases hi : s.placeOf addr = i
  · subst hi
    rw [if_pos rfl, if_pos rfl, hranks.reorder_use]
  · rw [if_neg hi, if_neg hi]

/-- An access of the bytes of a block changes neither the order of the blocks nor which are resident. -/
theorem access (h : s.Driven past) {p q : Packet} (hr : (s.access p).result = .ok (some (q, t))) :
    s.LruLike t ∧ t.Driven past ∧ ∀ b, (t.lookup b).isSome = (s.lookup b).isSome := by
  have hr : (s.perform (.access p)).result = .ok (.accessed (some q), t) := by
    simp only [Store.perform, Sim.result_bind, hr, Sim.ok_bind, Sim.result_pure]
  obtain ⟨q, hq, -⟩ := h _ (s.placeOf_lt 0)
  obtain ⟨hlike, -⟩ := hq.step hr
  have hdriven : t.Driven past := fun i hi => by
    obtain ⟨r, hranks, htags⟩ := h i (hlike.places ▸ hi)
    obtain ⟨-, r', hranks', htags'⟩ := hranks.step hr
    refine ⟨r', hranks', ?_⟩
    rw [htags', hlike.room, hlike.placeOf, ← htags]
    exact ite_self _
  refine ⟨hlike, hdriven, fun b => ?_⟩
  rw [hdriven.isSome_lookup, h.isSome_lookup, hlike.room, hlike.placeOf]

/-- Accesses are answered, and hit the blocks that are among the last of their place. -/
theorem drive (h : s.Driven past) (xs : List (Nat × Bytes)) :
    ∃ t, (drive xs s).result = .ok (hits s.room s.placeOf past (xs.map (·.1)), t) ∧ s.LruLike t ∧
      t.Driven (past ++ xs.map (·.1)) := by
  induction xs generalizing s past with
  | nil =>
    obtain ⟨q, hq, -⟩ := h _ (s.placeOf_lt 0)
    exact ⟨s, rfl, .refl hq.lru, by rwa [List.map_nil, List.append_nil]⟩
  | cons x rest ih =>
    obtain ⟨addr, data⟩ := x
    obtain ⟨reply, u, hu, hlike, hdriven⟩ := h.use addr data
    obtain ⟨t, ht, hlike', hdriven'⟩ := ih hdriven
    rw [List.append_assoc] at hdriven'
    refine ⟨t, ?_, hlike.trans hlike', hdriven'⟩
    rw [hlike.room, hlike.placeOf] at ht
    simp only [Store.drive, Sim.result_bind, hu, Sim.ok_bind, ht, Sim.result_pure, h.isSome_lookup]
    rfl

end Driven

/-! ## How many accesses find their block -/

/-- Accesses to blocks, of which `n` found their block resident, led from the new store `s` to a
store like `t`. -/
structure Finds (s : Store) (blocks : List Nat) (n : Nat) (t : Store) : Prop where
  like : s.LruLike t
  driven : t.Driven blocks
  hits : n = (hits s.room s.placeOf [] blocks).count true

namespace Finds

variable {u : Store} {blocks : List Nat} {n : Nat}

/-- One more access is counted if its block is resident. -/
theorem use (h : s.Finds blocks n t) {data : Bytes} {reply : Reply}
    (hr : (t.perform (t.use addr data)).result = .ok (reply, u)) :
    s.Finds (blocks ++ [addr]) (n + (t.lookup addr).isSome.toNat) u := by
  obtain ⟨reply', u', hr', hlike, hdriven⟩ := h.driven.use addr data
  obtain ⟨-, rfl⟩ := Prod.mk.inj (Except.ok.inj (hr.symm.trans hr'))
  refine ⟨h.like.trans hlike, hdriven, ?_⟩
  rw [hits_concat, List.nil_append, List.count_append, ← h.hits, ← h.like.room, ← h.like.placeOf, ← h.driven.isSome_lookup]
  cases (t.lookup addr).isSome <;> rfl

theorem touch (h : s.Finds blocks n t) (hl : (t.lookup addr).isSome) :
    s.Finds (blocks ++ [addr]) (n + 1) (t.touch addr) := by
  have huse : t.use addr [] = .touch addr := if_pos hl
  have hperform : (t.perform (t.use addr [])).result = .ok (.touched, t.touch addr) := by
    rw [huse]
    rfl
  have huses := h.use hperform
  rwa [hl] at huses

theorem insert (h : s.Finds blocks n t) (hl : t.lookup addr = none) {data : Bytes} {victim : Option Line}
    (hr : (t.insert addr data).result = .ok (victim, u)) : s.Finds (blocks ++ [addr]) n u := by
  have huse : t.use addr data = .insert addr data := if_neg (by simp [hl])
  have hperform : (t.perform (t.use addr data)).result = .ok (.victim victim, u) := by
    simp only [huse, perform, Sim.result_bind, hr, Sim.ok_bind, Sim.result_pure]
  have huses := h.use hperform
  rwa [hl] at huses

theorem access (h : s.Finds blocks n t) {p q : Packet} (hr : (t.access p).result = .ok (some (q, u))) :
    s.Finds blocks n u ∧ ∀ b, (u.lookup b).isSome = (t.lookup b).isSome := by
  obtain ⟨hlike, hdriven, hsame⟩ := h.driven.access hr
  exact ⟨⟨h.like.trans hlike, hdriven, h.hits⟩, hsame⟩

end Finds

/-- Before the first access, none has found its block. -/
theorem finds_nil {g : Geometry} {gen : Generator} (h : ofGeometry? g gen = .ok s) (hp : g.policy = .lru)
    (hk : g.kind ≠ .directMapped) : s.Finds [] 0 s :=
  ⟨.refl (lru_of_geometry h hp hk).1, driven_of_geometry h hp hk, rfl⟩

/-- An access is performed if its block is resident. -/
theorem isSome_of_access {p : Packet} {x : Option (Packet × Store)} (h : (s.access p).result = .ok x) :
    (s.lookup (p.block s.lineSize)).isSome = x.isSome := by
  rw [access_eq] at h
  obtain ⟨block, hblock, h⟩ := Sim.bind_eq_ok.mp h
  obtain rfl : p.block s.lineSize = block := Block.align_of_align? hblock
  cases hl : s.lookup (p.block s.lineSize) with
  | none =>
    rw [hl] at h
    obtain rfl := Except.ok.inj h
    rfl
  | some l =>
    rw [hl] at h
    obtain ⟨y, -, h⟩ := Sim.bind_eq_ok.mp h
    obtain rfl := Except.ok.inj h
    rfl

/-! ## Two stores -/

variable {s' : Store} {g g' : Geometry} {gen gen' : Generator}

/-- The places of the larger store are those of the smaller one, with more room. -/
theorem room_le_of_enlarged (hg : g.Enlarged g') (h : ofGeometry? g gen = .ok s)
    (h' : ofGeometry? g' gen' = .ok s') : s'.placeOf = s.placeOf ∧ s.room ≤ s'.room := by
  cases hg with
  | full kind kind' lines =>
    obtain ⟨-, rfl⟩ := full_of_geometry h kind
    obtain ⟨-, rfl⟩ := full_of_geometry h' kind'
    exact ⟨rfl, lines⟩
  | sets kind kind' lineSize sets ways =>
    obtain ⟨-, m, hsets, hline, rfl⟩ := sets_of_geometry h kind
    obtain ⟨-, m', hsets', hline', rfl⟩ := sets_of_geometry h' kind'
    refine ⟨funext fun addr => ?_, ways⟩
    show addr / m'.lineSize % m'.sets = addr / m.lineSize % m.sets
    rw [hline, hline', hsets, hsets', lineSize, sets]

theorem kind_of_enlarged (hg : g.Enlarged g') : g.kind ≠ .directMapped ∧ g'.kind ≠ .directMapped := by
  cases hg with
  | full kind kind' => rw [kind, kind']; decide
  | sets kind kind' => rw [kind, kind']; decide

/-- Accesses to blocks are answered by two LRU stores that were empty, the second one larger.
Then the blocks of the first one are resident in the second one, and no access that the first
one hit did the second one miss. -/
theorem drive_inclusion (hp : g.policy = .lru) (hp' : g'.policy = .lru) (hg : g.Enlarged g')
    (h : ofGeometry? g gen = .ok s) (h' : ofGeometry? g' gen' = .ok s') (xs : List (Nat × Bytes)) :
    ∃ found t found' t', (drive xs s).result = .ok (found, t) ∧ (drive xs s').result = .ok (found', t') ∧
      List.Forall₂ (fun x y => x = true → y = true) found found' ∧
      ∀ b, (t.lookup b).isSome → (t'.lookup b).isSome := by
  obtain ⟨hplace, hroom⟩ := room_le_of_enlarged hg h h'
  obtain ⟨hk, hk'⟩ := kind_of_enlarged hg
  obtain ⟨t, ht, hlike, hdriven⟩ := (driven_of_geometry h hp hk).drive xs
  obtain ⟨t', ht', hlike', hdriven'⟩ := (driven_of_geometry h' hp' hk').drive xs
  refine ⟨_, t, _, t', ht, ht', hplace ▸ hits_of_le hroom _ _, fun b hb => ?_⟩
  rw [hdriven.isSome_lookup, decide_eq_true_iff, hlike.room, hlike.placeOf] at hb
  rw [hdriven'.isSome_lookup, decide_eq_true_iff, hlike'.room, hlike'.placeOf, hplace]
  exact mem_latest_of_le hroom hb

end Store

end CacheSim
