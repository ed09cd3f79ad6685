import CacheSim.Proofs.Store.Lines
import Mathlib.Data.List.Find

/-!
# Lines by their last use

An LRU store of one place is a queue: the block that was used last stands in
front, and the one at the end makes room.  `LruQueue` is this queue, without any
clock, and `Ranked` says that lines, which stand in any order and bear the times
of their last uses, form a queue.

Each operation on the lines is one on the queue (`Ranked.touched`, `.held`,
`.inserted`), and the line with the least time is the last of the queue
(`Ranked.eq_concat_of_least`).
-/

namespace CacheSim

open Directory

/-- The line without its times. -/
def Line.timeless (l : Line) : Line :=
  { l with allocTime := 0, lastAccess := 0 }

@[simp] theorem Line.tag_timeless (l : Line) : l.timeless.tag = l.tag := rfl

/-- Lines without times, the one used last in front. -/
abbrev LruQueue := List Line

namespace LruQueue

/-- A use of a block moves its line to the front. -/
def touch (q : LruQueue) (addr : Nat) : LruQueue :=
  q.filter (·.tag = addr) ++ q.filter (·.tag ≠ addr)

/-- A new block comes to the front, and all but `room` lines go. -/
def insert (q : LruQueue) (room addr : Nat) (data : Bytes) : LruQueue :=
  .fresh addr data 0 :: q.take (room - 1)

/-- The blocks of the queue. -/
def tags (q : LruQueue) : List Nat :=
  q.map (·.tag)

theorem ofLines_eq_none_iff_tags {q : LruQueue} {addr : Nat} : ofLines q addr = none ↔ addr ∉ q.tags := by
  rw [ofLines_eq_none_iff, tags, List.mem_map]
  constructor
  · rintro h ⟨l, hl, ht⟩
    exact h l hl ht
  · exact fun h l hl ht => h ⟨l, hl, ht⟩

theorem touch_perm (q : LruQueue) (addr : Nat) : (q.touch addr).Perm q := by
  simpa [touch] using List.filter_append_perm (fun l : Line => decide (l.tag = addr)) q

theorem length_insert_le {q : LruQueue} {room : Nat} (h : 0 < room) (addr : Nat) (data : Bytes) :
    (q.insert room addr data).length ≤ room := by
  rw [insert, List.length_cons, List.length_take]
  omega

/-- The blocks with one brought to the front, as many as there is room for. -/
def promote (room addr : Nat) (tags : List Nat) : List Nat :=
  (addr :: tags.filter (· ≠ addr)).take room

theorem filter_ne_of_notMem {addr : Nat} {tags : List Nat} (h : addr ∉ tags) : tags.filter (· ≠ addr) = tags := by
  refine List.filter_eq_self.mpr fun b hb => ?_
  rw [decide_eq_true_iff]
  rintro rfl
  exact h hb

theorem tags_insert {q : LruQueue} {room addr : Nat} (h : 0 < room) (hn : addr ∉ q.tags) (data : Bytes) :
    (q.insert room addr data).tags = promote room addr q.tags := by
  obtain ⟨n, rfl⟩ := Nat.exists_eq_succ_of_ne_zero h.ne'
  rw [promote, filter_ne_of_notMem hn, List.take_succ_cons, tags, insert, List.map_cons, List.map_take]
  rfl

theorem tags_touch {q : LruQueue} {room addr : Nat} (hnodup : q.tags.Nodup) (hlen : q.length ≤ room) :
    (q.touch addr).tags = if addr ∈ q.tags then promote room addr q.tags else q.tags := by
  have hsplit : (q.touch addr).tags = q.tags.filter (· = addr) ++ q.tags.filter (· ≠ addr) := by
    rw [touch, tags, List.map_append, tags, List.filter_map, List.filter_map]
    rfl
  have hsame : (q.touch addr).tags.length ≤ room := by
    rw [tags, List.length_map, (q.touch_perm addr).length_eq]
    exact hlen
  rw [hsplit, List.filter_eq] at hsame ⊢
  by_cases hm : addr ∈ q.tags
  · rw [List.count_eq_one_of_mem hnodup hm] at hsame ⊢
    rw [if_pos hm]
    exact (List.take_of_length_le hsame).symm
  · rw [if_neg hm, List.count_eq_zero_of_not_mem hm]
    exact filter_ne_of_notMem hm

end LruQueue

/-- Lines of different blocks, used at different times up to now, the one used
last in front. -/
structure Ordered (time : Nat) (used : List Line) : Prop where
  nodup : (used.map (·.tag)).Nodup
  order : used.Pairwise fun k l => l.lastAccess < k.lastAccess
  past : ∀ l ∈ used, l.lastAccess ≤ time

/-- Lines that form a queue when they stand in the order of their last uses. -/
def Ranked (time : Nat) (lines : List Line) (q : LruQueue) : Prop :=
  ∃ used, lines.Perm used ∧ Ordered time used ∧ used.map Line.timeless = q

/-- The line that makes room for one more, if there is room for `room` lines: one
that was used first. -/
inductive LeastRecent (room : Nat) (lines : List Line) : Option Line → Prop where
  | free (h : lines.length < room) : LeastRecent room lines none
  | full {v : Line} (h : lines.length = room) (least : ∀ l ∈ lines, v.lastAccess ≤ l.lastAccess) :
    LeastRecent room lines (some v)

variable {time addr room : Nat} {lines lines' rest used : List Line} {q : LruQueue} {l v : Line} {victim : Option Line}

/-- The changed lines first and then the others. -/
theorem Directory.changed_perm (lines : List Line) (addr : Nat) (f : Line → Line) :
    (changed lines addr f).Perm ((lines.filter (·.tag = addr)).map f ++ lines.filter (·.tag ≠ addr)) := by
  have hfront : changed (lines.filter (·.tag = addr)) addr f = (lines.filter (·.tag = addr)).map f := by
    refine List.map_congr_left fun l hl => if_pos ?_
    simpa using (List.mem_filter.mp hl).2
  have hback : changed (lines.filter (·.tag ≠ addr)) addr f = lines.filter (·.tag ≠ addr) := by
    refine (List.map_congr_left fun l hl => if_neg ?_).trans (List.map_id _)
    simpa using (List.mem_filter.mp hl).2
  have hsplit : (lines.filter (·.tag = addr) ++ lines.filter (·.tag ≠ addr)).Perm lines := by
    simpa using List.filter_append_perm (fun l : Line => decide (l.tag = addr)) lines
  rw [← hfront, ← hback]
  simpa only [changed, List.map_append, List.filter_filter, Bool.and_self] using (hsplit.map _).symm

/-! ## The order of the lines -/

namespace Ordered

/-- Of the lines of one block there is one at most. -/
theorem pairwise_same (h : Ordered time used) (r : Line → Line → Prop) :
    (used.filter (·.tag = addr)).Pairwise r := by
  have hne : (used.filter (·.tag = addr)).Pairwise fun k l => k.tag ≠ l.tag :=
    (List.pairwise_map.mp h.nodup).filter _
  refine hne.imp_of_mem fun {k l} hk hl hkl => absurd ?_ hkl
  rw [List.mem_filter, decide_eq_true_iff] at hk hl
  rw [hk.2, hl.2]

theorem later (h : Ordered time used) : Ordered (time + 1) used :=
  ⟨h.nodup, h.order, fun l hl => Nat.le_succ_of_le (h.past l hl)⟩

theorem sublist (h : Ordered time used) {some : List Line} (hs : some.Sublist used) : Ordered time some :=
  ⟨h.nodup.sublist (hs.map _), h.order.sublist hs, fun l hl => h.past l (hs.subset hl)⟩

/-- A line that is used now comes to the front. -/
theorem cons (h : Ordered time used) (hn : ∀ k ∈ used, k.tag ≠ l.tag) (hl : l.lastAccess = time + 1) :
    Ordered (time + 1) (l :: used) where
  nodup := by
    rw [List.map_cons, List.nodup_cons, List.mem_map]
    exact ⟨fun ⟨k, hk, ht⟩ => hn k hk ht, h.nodup⟩
  order := List.pairwise_cons.mpr ⟨fun k hk => by have := h.past k hk; omega, h.order⟩
  past := List.forall_mem_cons.mpr ⟨Nat.le_of_eq hl, fun k hk => Nat.le_succ_of_le (h.past k hk)⟩

/-- The line of a block comes to the front when it is used now. -/
theorem touched (h : Ordered time used) (addr : Nat) :
    Ordered (time + 1)
      ((used.filter (·.tag = addr)).map (·.touched (time + 1)) ++ used.filter (·.tag ≠ addr)) := by
  have hback : Ordered time (used.filter (·.tag ≠ addr)) := h.sublist List.filter_sublist
  have hfront : ∀ r : Line → Line → Prop, (used.filter (·.tag = addr)).Pairwise r := h.pairwise_same
  generalize hf : used.filter (·.tag = addr) = front at hfront
  match front, hfront with
  | [], _ => exact hback.later
  | [k], _ =>
    have hk : k ∈ used.filter (·.tag = addr) := hf ▸ List.mem_singleton_self k
    rw [List.mem_filter, decide_eq_true_iff] at hk
    refine hback.cons (fun l hl ht => ?_) rfl
    rw [List.mem_filter, decide_eq_true_iff] at hl
    exact hl.2 (ht.trans hk.2)
  | k :: l :: _, hfront => exact absurd (List.rel_of_pairwise_cons (hfront fun _ _ => False) (List.mem_cons_self ..)) id

/-- A change that leaves the block and the time of every line. -/
theorem map {f : Line → Line} (h : Ordered time used) (ht : ∀ l, (f l).tag = l.tag)
    (hl : ∀ l, (f l).lastAccess = l.lastAccess) : Ordered time (used.map f) where
  nodup := by
    rw [List.map_map, show (fun l : Line => l.tag) ∘ f = (·.tag) from funext ht]
    exact h.nodup
  order := List.pairwise_map.mpr (h.order.imp fun {k l} hkl => by rw [hl, hl]; exact hkl)
  past := by
    intro _ hm
    obtain ⟨l, hmem, rfl⟩ := List.mem_map.mp hm
    rw [hl]
    exact h.past l hmem

/-- The line with the least time is the last one. -/
theorem eq_concat_of_least (h : Ordered time used) (hv : v ∈ used)
    (hleast : ∀ l ∈ used, v.lastAccess ≤ l.lastAccess) : ∃ front, used = front ++ [v] := by
  obtain ⟨front, back, rfl⟩ := List.append_of_mem hv
  cases back with
  | nil => exact ⟨front, rfl⟩
  | cons l back =>
    have hlt := List.rel_of_pairwise_cons (List.pairwise_append.mp h.order).2.1 (List.mem_cons_self (a := l) (l := back))
    have hle := hleast l (by simp)
    omega

end Ordered

/-! ## Lines that form a queue -/

namespace Ranked

theorem nil (time : Nat) : Ranked time [] [] :=
  ⟨[], .nil, ⟨List.nodup_nil, .nil, by simp⟩, rfl⟩

theorem later (h : Ranked time lines q) : Ranked (time + 1) lines q := by
  obtain ⟨used, hperm, hord, hq⟩ := h
  exact ⟨used, hperm, hord.later, hq⟩

theorem length_eq (h : Ranked time lines q) : lines.length = q.length := by
  obtain ⟨used, hperm, -, rfl⟩ := h
  rw [hperm.length_eq, List.length_map]

/-- The lines without their times, in any order. -/
theorem perm (h : Ranked time lines q) : (lines.map Line.timeless).Perm q := by
  obtain ⟨used, hperm, -, rfl⟩ := h
  exact hperm.map _

theorem perm_tags (h : Ranked time lines q) : (lines.map (·.tag)).Perm q.tags := by
  have hp := h.perm.map (·.tag)
  rwa [List.map_map] at hp

theorem nodup_tags (h : Ranked time lines q) : q.tags.Nodup := by
  obtain ⟨used, -, hord, rfl⟩ := h
  rw [LruQueue.tags, List.map_map]
  exact hord.nodup

/-- No two lines were used at the same time. -/
theorem nodup_lastAccess (h : Ranked time lines q) : (lines.map (·.lastAccess)).Nodup := by
  obtain ⟨used, hperm, hord, -⟩ := h
  rw [(hperm.map _).nodup_iff]
  exact List.pairwise_map.mpr (hord.order.imp fun h => Nat.ne_of_gt h)

/-- The block of the line that was used later stands before that of the other. -/
theorem of_lt (h : Ranked time lines q) {k : Line} (hk : k ∈ lines) (hl : l ∈ lines)
    (hlt : k.lastAccess < l.lastAccess) {r : Nat → Nat → Prop} (hr : q.tags.Pairwise r) : r l.tag k.tag := by
  obtain ⟨used, hperm, hord, rfl⟩ := h
  rw [LruQueue.tags, List.map_map, List.pairwise_map] at hr
  have hboth := List.pairwise_iff_getElem.mp (hord.order.and hr)
  obtain ⟨i, hi, rfl⟩ := List.getElem_of_mem (hperm.mem_iff.mp hk)
  obtain ⟨j, hj, rfl⟩ := List.getElem_of_mem (hperm.mem_iff.mp hl)
  rcases Nat.lt_trichotomy i j with hij | rfl | hij
  · have := (hboth i j hi hj hij).1
    omega
  · exact absurd hlt (Nat.lt_irrefl _)
  · exact (hboth j i hj hi hij).2

/-- A block is found among the lines as it is found in the queue. -/
theorem ofLines_eq (h : Ranked time lines q) (addr : Nat) :
    (ofLines lines addr).map Line.timeless = ofLines q addr := by
  obtain ⟨used, hperm, hord, rfl⟩ := h
  have hnodup : (lines.map (·.tag)).Nodup := (hperm.map _).nodup_iff.mpr hord.nodup
  have hlines : ofLines lines addr = ofLines used addr := by
    apply List.find?_eq_find?_of_perm hperm
    rintro k ⟨hk, hka⟩ l ⟨hl, hla⟩
    rw [beq_iff_eq] at hka hla
    exact List.inj_on_of_nodup_map hnodup hk hl (hka.trans hla.symm)
  rw [hlines]
  simp only [ofLines, List.find?_map]
  rfl

/-! ## Operations -/

/-- A use of a block moves it to the front. -/
theorem touched (h : Ranked time lines q) (addr : Nat) :
    Ranked (time + 1) (changed lines addr (·.touched (time + 1))) (q.touch addr) := by
  obtain ⟨used, hperm, hord, rfl⟩ := h
  refine ⟨_, (hperm.map _).trans (changed_perm used addr _), hord.touched addr, ?_⟩
  rw [List.map_append, List.map_map, LruQueue.touch, List.filter_map, List.filter_map]
  rfl

/-- Other data in the line of a block leaves the order. -/
theorem held (h : Ranked time lines q) (addr : Nat) (data : Bytes) :
    Ranked time (changed lines addr (·.holding data)) (changed q addr (·.holding data)) := by
  obtain ⟨used, hperm, hord, rfl⟩ := h
  refine ⟨changed used addr (·.holding data), hperm.map _, hord.map (fun l => ?_) (fun l => ?_), ?_⟩
  · split <;> rfl
  · split <;> rfl
  · simp only [changed, List.map_map]
    refine List.map_congr_left fun l _ => ?_
    show (if l.tag = addr then l.holding data else l).timeless =
      if l.tag = addr then l.timeless.holding data else l.timeless
    by_cases ht : l.tag = addr
    · rw [if_pos ht, if_pos ht]
      rfl
    · rw [if_neg ht, if_neg ht]

/-- A new block comes to the front, and takes the room of the last one if there
is no other. -/
theorem inserted {data : Bytes} (h : Ranked time lines q) (hn : ofLines lines addr = none)
    (hperm : lines.Perm (victim.toList ++ rest)) (hperm' : lines'.Perm (.fresh addr data (time + 1) :: rest))
    (hv : LeastRecent room lines victim) :
    Ranked (time + 1) lines' (q.insert room addr data) ∧ victim.map Line.timeless = q[room - 1]? := by
  obtain ⟨used, hused, hord, rfl⟩ := h
  have hnew : ∀ k ∈ used, k.tag ≠ addr := fun k hk => ofLines_eq_none_iff.mp hn k (hused.mem_iff.mpr hk)
  have hlen := hused.length_eq
  cases hv with
  | free hroom =>
    have htake : (used.map Line.timeless).take (room - 1) = used.map Line.timeless :=
      List.take_of_length_le (by rw [List.length_map]; omega)
    refine ⟨⟨.fresh addr data (time + 1) :: used, ?_, hord.cons hnew rfl, ?_⟩, ?_⟩
    · exact hperm'.trans ((hperm.symm.trans hused).cons _)
    · rw [LruQueue.insert, htake]
      rfl
    · rw [Option.map_none, List.getElem?_eq_none (by rw [List.length_map]; omega)]
  | @full v hfull hleast =>
    have hmem : v ∈ used := hused.mem_iff.mp (hperm.mem_iff.mpr (List.mem_cons_self ..))
    obtain ⟨front, rfl⟩ := hord.eq_concat_of_least hmem fun l hl => hleast l (hused.mem_iff.mpr hl)
    have hrest : rest.Perm front :=
      ((hperm.symm.trans hused).trans (List.perm_append_singleton v front)).cons_inv
    have hfront : room - 1 = (front.map Line.timeless).length := by
      rw [List.length_append, List.length_singleton] at hlen
      rw [List.length_map]
      omega
    have hord' : Ordered time front := hord.sublist (List.sublist_append_left ..)
    refine ⟨⟨.fresh addr data (time + 1) :: front, hperm'.trans (hrest.cons _), ?_, ?_⟩, ?_⟩
    · exact hord'.cons (fun k hk => hnew k (List.mem_append_left _ hk)) rfl
    · rw [LruQueue.insert, List.map_append, hfront, List.take_left]
      rfl
    · rw [List.map_append, hfront, List.getElem?_append_right (Nat.le_refl _), Nat.sub_self]
      rfl

end Ranked

end CacheSim
