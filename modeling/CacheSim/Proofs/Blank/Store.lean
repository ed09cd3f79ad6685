import CacheSim.Proofs.Blank.Basic
import CacheSim.Proofs.Store.Basic

/-!
# Blanked stores

A store with zeros in all lines.  It holds the same blocks at the same places
and with the same times, so it looks up, touches and evicts the same lines: the
operations of a store look at the bytes of no line.
-/

namespace CacheSim

namespace Line

/-- The line with zeros for its bytes. -/
def blank (l : Line) : Line :=
  l.holding (Block.blank l.data)

@[simp] theorem tag_blank (l : Line) : l.blank.tag = l.tag := rfl
@[simp] theorem data_blank (l : Line) : l.blank.data = Block.blank l.data := rfl
@[simp] theorem lastAccess_blank (l : Line) : l.blank.lastAccess = l.lastAccess := rfl
theorem blank_holding (l : Line) (data : Bytes) : (l.holding data).blank = l.blank.holding (Block.blank data) := rfl
theorem blank_touched (l : Line) (time : Nat) : (l.touched time).blank = l.blank.touched time := rfl
theorem blank_fresh (tag : Nat) (data : Bytes) (time : Nat) :
    (fresh tag data time).blank = fresh tag (Block.blank data) time := rfl

end Line

variable {f g : Line → Line} {addr : Nat} {data : Bytes}

/-! ## Direct mapped -/

namespace DirectMapped

/-- The store with zeros in all lines. -/
def blank (s : DirectMapped) : DirectMapped :=
  { s with slots := s.slots.map (Option.map Line.blank) }

/-- A new store has no lines. -/
theorem agree_ofSizes? (lines lineSize : Nat) : Agree blank (ofSizes? lines lineSize) (ofSizes? lines lineSize) :=
  .bind (.refl _) fun mapping => .of_eq (by simp only [id, blank, Vector.map_replicate, Option.map_none])

variable (s : DirectMapped)

theorem lines_blank : s.blank.lines = s.lines.map Line.blank := by
  simp only [lines, blank, Vector.toList_map, List.filterMap_map, List.map_filterMap]
  rfl

theorem lookup_blank (addr : Nat) : s.blank.lookup addr = (s.lookup addr).map Line.blank := by
  show ((s.slots.map (Option.map Line.blank))[(s.mapping.setIndex addr).val]).filter (·.tag == addr) =
    (s.slots[(s.mapping.setIndex addr).val].filter (·.tag == addr)).map Line.blank
  rw [Vector.getElem_map, Option.filter_map]
  rfl

theorem blank_update (hf : ∀ l, (f l).blank = g l.blank) (addr : Nat) :
    (s.update addr f).blank = s.blank.update addr g := by
  unfold update
  rw [lookup_blank]
  cases s.lookup addr with
  | none => rfl
  | some l => simp [blank, Vector.map_set, hf]

/-- A change that only the bytes of a line show does not show in the blanked store. -/
theorem blank_update_self (hf : ∀ l, s.lookup addr = some l → (f l).blank = l.blank) :
    (s.update addr f).blank = s.blank := by
  cases hl : s.lookup addr with
  | none => rw [update_of_none hl]
  | some l =>
    have hslot : s.slots[(s.mapping.setIndex addr).val] = some l := (lookup_eq_some_iff.mp hl).1
    have hline : some (f l).blank = (s.slots.map (Option.map Line.blank))[(s.mapping.setIndex addr).val] := by
      rw [Vector.getElem_map, hslot, Option.map_some, hf l hl]
    have hslots : (s.slots.set (s.mapping.setIndex addr) (some (f l))).map (Option.map Line.blank) =
        s.slots.map (Option.map Line.blank) := by
      rw [Vector.map_set, Option.map_some, hline, Vector.set_getElem_self]
    unfold update
    rw [hl]
    exact congrArg (fun slots => DirectMapped.mk s.mapping slots s.time) hslots

theorem blank_touch (addr : Nat) : (s.touch addr).blank = s.blank.touch addr :=
  blank_update { s with time := s.time + 1 } (fun l => Line.blank_touched l (s.time + 1)) addr

theorem agree_insert (addr : Nat) (data : Bytes) :
    Agree (Prod.map (Option.map Line.blank) blank) (s.insert addr data) (s.blank.insert addr (Block.blank data)) := by
  unfold insert
  rw [lookup_blank, Option.isSome_map]
  refine .ite Iff.rfl (.ite Iff.rfl (.error _ _) (.of_eq (Prod.ext ?_ ?_))) (.error _ _)
  · exact Vector.getElem_map ..
  · simp only [blank, Prod.map_snd, Vector.map_set]
    rfl

end DirectMapped

/-! ## Fully associative -/

namespace FullyAssociative

/-- The store with zeros in all lines. -/
def blank (s : FullyAssociative) : FullyAssociative :=
  { s with lines := s.lines.map Line.blank }

theorem agree_ofSizes? (capacity lineSize : Nat) (policy : Policy) :
    Agree blank (ofSizes? capacity lineSize policy) (ofSizes? capacity lineSize policy) :=
  .ite Iff.rfl (.ok _) (.error _ _)

variable (s : FullyAssociative)

theorem lookup_blank (addr : Nat) : s.blank.lookup addr = (s.lookup addr).map Line.blank :=
  List.find?_map ..

theorem blank_update (hf : ∀ l, (f l).blank = g l.blank) (addr : Nat) :
    (s.update addr f).blank = s.blank.update addr g := by
  simp only [update, blank, List.map_map]
  congr 1
  refine List.map_congr_left fun l _ => ?_
  show (if l.tag = addr then f l else l).blank = if l.tag = addr then g l.blank else l.blank
  by_cases ht : l.tag = addr
  · rw [if_pos ht, if_pos ht, hf]
  · rw [if_neg ht, if_neg ht]

theorem blank_touch (addr : Nat) : (s.touch addr).blank = s.blank.touch addr :=
  blank_update { s with time := s.time + 1 } (fun l => Line.blank_touched l (s.time + 1)) addr

/-- A change that only the bytes of a line show does not show in the blanked store. -/
theorem blank_update_self (hf : ∀ l ∈ s.lines, (f l).blank = l.blank) : (s.update addr f).blank = s.blank := by
  simp only [update, blank, List.map_map]
  congr 1
  refine List.map_congr_left fun l hl => ?_
  simp only [Function.comp_apply]
  split
  · exact hf l hl
  · rfl

theorem swapRemove_blank (lines : List Line) (i : Nat) :
    swapRemove (lines.map Line.blank) i = (swapRemove lines i).map (Prod.map Line.blank (List.map Line.blank)) := by
  unfold swapRemove
  rw [List.getElem?_map, List.getLast?_map]
  cases lines[i]? with
  | none => rfl
  | some l =>
    cases lines.getLast? with
    | none => rfl
    | some last => simp [List.map_set, List.map_dropLast]

theorem agree_evict (gen : Generator) :
    Agree (Prod.map (Option.map Line.blank) (Prod.map blank id)) (s.evict gen).result (s.blank.evict gen).result := by
  have htimes : s.blank.lines.map (·.lastAccess) = s.lines.map (·.lastAccess) := by
    simp [blank]
  unfold evict
  rw [htimes]
  simp only [Sim.result_bind, Sim.result_liftM]
  refine .bind (.refl _) fun o => ?_
  obtain ⟨i, gen⟩ := o
  have hswap : i.bind (swapRemove s.blank.lines) =
      (i.bind (swapRemove s.lines)).map (Prod.map Line.blank (List.map Line.blank)) := by
    cases i with
    | none => rfl
    | some i => exact swapRemove_blank s.lines i
  simp only [id, hswap]
  cases i.bind (swapRemove s.lines) with
  | none => exact .ok _
  | some o =>
    simp only [Option.map_some, Sim.result_bind, Sim.result_trace]
    exact .ok _

theorem agree_insert (gen : Generator) (addr : Nat) (data : Bytes) :
    Agree (Prod.map (Option.map Line.blank) (Prod.map blank id)) (s.insert gen addr data).result
      (s.blank.insert gen addr (Block.blank data)).result := by
  unfold insert
  rw [lookup_blank, Option.isNone_map]
  have hlength : s.blank.lines.length = s.lines.length := List.length_map _
  simp only [Sim.result_bind, Sim.result_require, apply_ite Sim.result, Sim.result_pure, hlength]
  have hadd : ∀ o : Option Line × FullyAssociative × Generator,
      Agree (Prod.map (Option.map Line.blank) (Prod.map blank id))
        ((if (o.2.1.lines ++ [Line.fresh addr data (o.2.1.time + 1)]).length ≤ o.2.1.capacity then Except.ok ()
            else .error .overfullLines) >>= fun _ =>
          .ok (o.1, { o.2.1 with time := o.2.1.time + 1, lines := o.2.1.lines ++ [Line.fresh addr data (o.2.1.time + 1)] },
            o.2.2))
        ((if (o.2.1.blank.lines ++ [Line.fresh addr (Block.blank data) (o.2.1.time + 1)]).length ≤ o.2.1.capacity then
            Except.ok () else .error .overfullLines) >>= fun _ =>
          .ok (o.1.map Line.blank, { o.2.1.blank with
            time := o.2.1.time + 1
            lines := o.2.1.blank.lines ++ [Line.fresh addr (Block.blank data) (o.2.1.time + 1)] }, o.2.2)) := fun o =>
    .bind (e := id) (.ite (by simp [blank]) (.ok ()) (.error _ _)) fun _ => .of_eq (by simp [blank, Line.blank_fresh])
  exact .bind (.refl _) fun _ => .ite Iff.rfl (.bind (s.agree_evict gen) hadd) (hadd (none, s, gen))

end FullyAssociative

/-! ## Set associative -/

namespace Ways

/-- The ways with zeros in all lines. -/
def blank (w : Ways) : Ways :=
  w.map (Option.map Line.blank)

variable (w : Ways)

theorem lines_blank : w.blank.lines = w.lines.map Line.blank := by
  simp [lines, blank, List.filterMap_map, List.map_filterMap]

theorem lookup_blank (addr : Nat) : w.blank.lookup addr = (w.lookup addr).map Line.blank := by
  rw [lookup, lines_blank]
  exact List.find?_map ..

theorem blank_update (hf : ∀ l, (f l).blank = g l.blank) (addr : Nat) :
    (w.update addr f).blank = w.blank.update addr g := by
  simp only [update, blank, List.map_map]
  refine List.map_congr_left fun way _ => ?_
  cases way with
  | none => rfl
  | some l =>
    by_cases ht : l.tag = addr
    · simp [ht, hf]
    · simp [ht]

/-- A change that only the bytes of a line show does not show in the blanked ways. -/
theorem blank_update_self (hf : ∀ l ∈ w.lines, (f l).blank = l.blank) : (w.update addr f).blank = w.blank := by
  simp only [update, blank, List.map_map]
  refine List.map_congr_left fun way hway => ?_
  cases way with
  | none => rfl
  | some l =>
    have hl : l ∈ w.lines := List.mem_filterMap.mpr ⟨some l, hway, rfl⟩
    simp only [Function.comp_apply, Option.map_some]
    split
    · rw [hf l hl]
    · rfl

end Ways

namespace SetAssociative

/-- The store with zeros in all lines. -/
def blank (s : SetAssociative) : SetAssociative :=
  { s with sets := s.sets.map Ways.blank }

theorem agree_ofSizes? (lines ways lineSize : Nat) (policy : Policy) :
    Agree blank (ofSizes? lines ways lineSize policy) (ofSizes? lines ways lineSize policy) := by
  have hset : Ways.blank (List.replicate ways none) = List.replicate ways none := List.map_replicate
  refine .ite Iff.rfl (.ite Iff.rfl (.bind (.refl _) fun mapping => .of_eq ?_) (.error _ _)) (.error _ _)
  simp only [id, blank, Vector.map_replicate, hset]

variable (s : SetAssociative)

theorem lines_blank : s.blank.lines = s.lines.map Line.blank := by
  simp only [lines, blank, Vector.toList_map, List.flatMap_map, List.map_flatMap, Ways.lines_blank]

theorem setOf_blank (addr : Nat) : s.blank.setOf addr = (s.setOf addr).blank :=
  Vector.getElem_map ..

theorem blank_withSet (addr : Nat) (w : Ways) : (s.withSet addr w).blank = s.blank.withSet addr w.blank := by
  simp only [blank, withSet, Vector.map_set]

theorem lookup_blank (addr : Nat) : s.blank.lookup addr = (s.lookup addr).map Line.blank := by
  rw [lookup, setOf_blank]
  exact Ways.lookup_blank ..

theorem blank_update (hf : ∀ l, (f l).blank = g l.blank) (addr : Nat) :
    (s.update addr f).blank = s.blank.update addr g := by
  rw [update, blank_withSet, Ways.blank_update _ hf, update, setOf_blank]

theorem blank_touch (addr : Nat) : (s.touch addr).blank = s.blank.touch addr :=
  blank_update { s with time := s.time + 1 } (fun l => Line.blank_touched l (s.time + 1)) addr

/-- A change that only the bytes of a line show does not show in the blanked store. -/
theorem blank_update_self (hf : ∀ l ∈ (s.setOf addr).lines, (f l).blank = l.blank) :
    (s.update addr f).blank = s.blank := by
  rw [update, blank_withSet, Ways.blank_update_self _ hf, ← setOf_blank]
  simp only [withSet, setOf]
  exact congrArg (fun sets => SetAssociative.mk s.mapping s.ways s.policy sets s.time) (Vector.set_getElem_self ..)

theorem chooseWay_blank (w : Ways) (gen : Generator) : s.blank.chooseWay w.blank gen = s.chooseWay w gen := by
  have htimes : w.blank.lines.map (·.lastAccess) = w.lines.map (·.lastAccess) := by
    simp [Ways.lines_blank]
  have hfree : w.blank.findIdx? Option.isNone = w.findIdx? Option.isNone := by
    rw [Ways.blank, List.findIdx?_map]
    congr 1
    funext way
    cases way <;> rfl
  unfold chooseWay
  rw [hfree, htimes]
  rfl

theorem agree_insert (gen : Generator) (addr : Nat) (data : Bytes) :
    Agree (Prod.map (Option.map Line.blank) (Prod.map blank id)) (s.insert gen addr data).result
      (s.blank.insert gen addr (Block.blank data)).result := by
  unfold insert
  rw [lookup_blank, Option.isNone_map]
  simp only [Sim.result_bind, Sim.result_require, Sim.result_trace, Sim.result_liftM, Sim.result_pure, setOf_blank,
    chooseWay_blank]
  refine .bind (.refl _) fun _ => .bind (.refl _) fun o => ?_
  obtain ⟨way, gen⟩ := o
  refine .bind (.refl _) fun _ => .of_eq ?_
  refine Prod.ext ?_ (Prod.ext ?_ rfl)
  · show (s.setOf addr).blank.getD way none = ((s.setOf addr).getD way none).map Line.blank
    rw [Ways.blank, List.getD_eq_getElem?_getD, List.getD_eq_getElem?_getD, List.getElem?_map]
    cases (s.setOf addr)[way]? <;> rfl
  · simp only [id, Prod.map_snd, Prod.map_fst, blank_withSet, Ways.blank, List.map_set]
    rfl

end SetAssociative

/-! ## Stores -/

/-- The lines with zeros for their bytes. -/
def Organization.blank : Organization → Organization
  | direct s => direct s.blank
  | full s => full s.blank
  | sets s => sets s.blank

namespace Store

/-- The store with zeros in all lines. -/
def blank (s : Store) : Store :=
  { s with organization := s.organization.blank }

/-- A new store is the same blanked. -/
theorem agree_of_geometry (g : Geometry) (gen : Generator) :
    Agree blank ( ofGeometry? g gen) ( ofGeometry? g gen) := by
  unfold ofGeometry?
  have hstore : ∀ o : Organization, Agree blank (.ok ⟨o, gen⟩) (.ok ⟨o.blank, gen⟩) := fun o =>
    .ok (Store.mk o gen)
  cases g.kind with
  | directMapped =>
    exact .bind (.bind (DirectMapped.agree_ofSizes? ..) fun s => .ok (Organization.direct s)) hstore
  | fullyAssociative =>
    exact .bind (.bind (FullyAssociative.agree_ofSizes? ..) fun s => .ok (Organization.full s)) hstore
  | setAssociative =>
    exact .bind (.bind (SetAssociative.agree_ofSizes? ..) fun s => .ok (Organization.sets s)) hstore

variable (s : Store)

@[simp] theorem lineSize_blank : s.blank.lineSize = s.lineSize := by
  obtain ⟨d | a | a, gen⟩ := s <;> rfl

@[simp] theorem capacity_blank : s.blank.capacity = s.capacity := by
  obtain ⟨d | a | a, gen⟩ := s <;> rfl

theorem lines_blank : s.blank.lines = s.lines.map Line.blank := by
  obtain ⟨d | a | a, gen⟩ := s
  · exact d.lines_blank
  · rfl
  · exact a.lines_blank

@[simp] theorem size_blank : s.blank.size = s.size := by
  rw [size, lines_blank, List.length_map]
  rfl

theorem lookup_blank (addr : Nat) : s.blank.lookup addr = (s.lookup addr).map Line.blank := by
  obtain ⟨d | a | a, gen⟩ := s
  · exact d.lookup_blank addr
  · exact a.lookup_blank addr
  · exact a.lookup_blank addr

theorem blank_update (hf : ∀ l, (f l).blank = g l.blank) (addr : Nat) :
    (s.update addr f).blank = s.blank.update addr g := by
  obtain ⟨d | a | a, gen⟩ := s
  · exact congrArg (fun x => Store.mk (.direct x) gen) (d.blank_update hf addr)
  · exact congrArg (fun x => Store.mk (.full x) gen) (a.blank_update hf addr)
  · exact congrArg (fun x => Store.mk (.sets x) gen) (a.blank_update hf addr)

theorem blank_touch (addr : Nat) : (s.touch addr).blank = s.blank.touch addr := by
  obtain ⟨d | a | a, gen⟩ := s
  · exact congrArg (fun x => Store.mk (.direct x) gen) (d.blank_touch addr)
  · exact congrArg (fun x => Store.mk (.full x) gen) (a.blank_touch addr)
  · exact congrArg (fun x => Store.mk (.sets x) gen) (a.blank_touch addr)

/-- The victim and the random choice of it do not depend on bytes. -/
theorem agree_insert (addr : Nat) (data : Bytes) :
    Agree (Prod.map (Option.map Line.blank) blank) (s.insert addr data).result
      (s.blank.insert addr (Block.blank data)).result := by
  obtain ⟨d | a | a, gen⟩ := s
  · simp only [insert, blank, Organization.blank, Sim.result_bind, Sim.result_liftM]
    exact .bind (d.agree_insert addr data) fun _ => .ok _
  · simp only [insert, blank, Organization.blank, Sim.result_bind]
    exact .bind (a.agree_insert gen addr data) fun _ => .ok _
  · simp only [insert, blank, Organization.blank, Sim.result_bind]
    exact .bind (a.agree_insert gen addr data) fun _ => .ok _

/-- An access hits or misses whatever the bytes are. -/
theorem agree_access (p : Packet) :
    Agree (Option.map (Prod.map Packet.blank blank)) (s.access p).result (s.blank.access p.blank).result := by
  rw [access_eq, access_eq, lineSize_blank, Packet.addr_blank]
  refine .bind (.refl _) fun block => ?_
  simp only [id, lookup_blank]
  cases s.lookup block with
  | none => exact .ok _
  | some line =>
    refine .bind (p.agree_against line.data s.lineSize) fun x => .of_eq ?_
    have hupdate : (s.update block (·.holding x.2)).blank = s.blank.update block (·.holding (Block.blank x.2)) :=
      s.blank_update (fun l => Line.blank_holding l x.2) block
    show _ = some (x.1.blank, (s.update block (·.holding x.2)).blank)
    rw [hupdate]
    rfl

/-- Other bytes for a line do not show in the blanked store. -/
theorem Valid.blank_update_holding {s : Store} (h : s.Valid) (hdata : data.length = s.lineSize) :
    (s.update addr (·.holding data)).blank = s.blank := by
  have hf : ∀ l : Line, l.data.length = s.lineSize → (l.holding data).blank = l.blank := fun l hl =>
    congrArg l.holding (Block.blank_congr (hdata.trans hl.symm))
  obtain ⟨d | a | a, gen⟩ := s
  · have hd : d.Valid := h
    exact congrArg (fun x => Store.mk (.direct x) gen) (d.blank_update_self fun l hl => hf l (hd.sound.length hl))
  · have ha : a.Valid := h
    exact congrArg (fun x => Store.mk (.full x) gen) (a.blank_update_self fun l hl => hf l (ha.lines.length l hl))
  · have ha : a.Valid := h
    exact congrArg (fun x => Store.mk (.sets x) gen)
      (a.blank_update_self fun l hl => hf l ((ha.setOf addr).lines.length l hl))

/-- An access that hits changes bytes of one line only. -/
theorem Valid.blank_of_access {s t : Store} {p q : Packet} (h : s.Valid) (hpos : 0 < s.lineSize)
    (hp : p.IsAccess s.lineSize) (hacc : (s.access p).result = .ok (some (q, t))) : t.blank = s.blank := by
  have hb : Block.align? s.lineSize p.addr = .ok (p.block s.lineSize) := Block.align?_of_pos hpos p.addr
  rw [access_eq, hb, Sim.ok_bind] at hacc
  cases hl : s.lookup (p.block s.lineSize) with
  | none => simp [hl] at hacc
  | some line =>
    simp only [hl] at hacc
    obtain ⟨x, hx, hacc⟩ := Sim.bind_eq_ok.mp hacc
    obtain ⟨-, rfl⟩ := Prod.mk.inj (Option.some.inj (Except.ok.inj hacc))
    exact h.blank_update_holding (hp.length_against (h.sound.length hl) hx)

end Store

end CacheSim
