import CacheSim.Config.Format
import CacheSim.Proofs.Config.Size
import CacheSim.Proofs.Document.Abridged
import CacheSim.Stats.Format
import CacheSim.Trace.Format

/-!
# Documents are read as they were written

Configurations, traces and statistics are read from their documents as the values that
were written, whatever fields with a default value were left out on any level
(`documents_round_trip`).  Each type has its outline beside its `standsFor` theorem, which
goes through the fields in the order of the schema.
-/

namespace CacheSim

namespace Document

variable {α : Type}

theorem bind_of_eq_some {β : Type} {x : Option α} {a : α} (h : x = some a) (f : α → Option β) : (x >>= f) = f a :=
  h ▸ rfl

/-! ## Scalars -/

theorem toNat?_nat {bound n : Nat} (hn : n < bound) : (nat n).toNat? bound = some n :=
  if_pos hn

theorem standsFor_uint64 (n : UInt64) : StandsFor .leaf toUInt64? (nat n.toNat) n :=
  .leaf <| by rw [toUInt64?, toNat?_nat n.toNat_lt, Option.map_some, UInt64.ofNat_toNat]

theorem standsFor_uint32 (n : UInt32) : StandsFor .leaf toUInt32? (nat n.toNat) n :=
  .leaf <| by rw [toUInt32?, toNat?_nat n.toNat_lt, Option.map_some, UInt32.ofNat_toNat]

theorem standsFor_byte (n : UInt8) : StandsFor .leaf toByte? (nat n.toNat) n :=
  .leaf <| by rw [toByte?, toNat?_nat n.toNat_lt, Option.map_some, UInt8.ofNat_toNat]

theorem standsFor_count {n : Nat} (hn : n < Word.bound) : StandsFor .leaf toCount? (nat n) n :=
  .leaf (toNat?_nat hn)

theorem standsFor_bool (b : Bool) : StandsFor .leaf toBool? (bool b) b :=
  .leaf rfl

/-- A value that may be null, of a kind that is never written as null. -/
theorem standsFor_ofOption {read : Document → Option α} {write : α → Document} {x : Option α}
    (h : ∀ a ∈ x, read (write a) = some a ∧ write a ≠ null) :
    StandsFor .leaf (toOption? read) (ofOption write x) x :=
  .leaf <| by
    cases x with
    | none => rfl
    | some a =>
      obtain ⟨hread, hnull⟩ := h a rfl
      show toOption? read (write a) = _
      rw [toOption?.eq_2 read (write a) hnull, hread]
      rfl

end Document

open Document

/-! ## Configurations -/

theorem CacheKind.standsFor (k : CacheKind) : StandsFor .leaf ofDocument? (.text k.name) k :=
  .leaf (by cases k <;> rfl)

theorem Policy.standsFor (p : Policy) : StandsFor .leaf ofDocument? (.text p.name) p :=
  .leaf (by cases p <;> rfl)

theorem Size.standsFor (size : Size) : StandsFor .leaf ofDocument? size.toDocument size :=
  .leaf <| by
    show ofDocument? (.nat size.bytes.toNat) = _
    rw [ofDocument?_nat, if_pos size.bytes.toNat_lt, UInt64.ofNat_toNat]

theorem standsFor_words (x : Option UInt64) :
    StandsFor .leaf (toOption? toUInt64?) (.ofOption (fun n => .nat n.toNat) x) x :=
  standsFor_ofOption fun n _ => ⟨(standsFor_uint64 n).read_eq, nofun⟩

theorem standsFor_policies (x : Option Policy) :
    StandsFor .leaf (toOption? Policy.ofDocument?) (.ofOption (fun p => .text p.name) x) x :=
  standsFor_ofOption fun p _ => ⟨p.standsFor.read_eq, nofun⟩

namespace CacheConfig

/-- Every field of the cache has a default. -/
def outline : Outline :=
  .record (fun _ => .leaf) (toDocument {}).get?

theorem standsFor (c : CacheConfig) : StandsFor outline ofDocument? c.toDocument c := by
  refine .record schema (by decide) (.refl _) (fun _ _ => rfl) fun d values hd hfound => ?_
  have hkind := c.kind.standsFor.orDefault (CacheKind.standsFor _) (hfound "kind")
  have hsize := c.size.standsFor.orDefault (Size.standsFor _) (hfound "size")
  have hlatency := (standsFor_uint64 c.latency).orDefault (standsFor_uint64 _) (hfound "latency")
  have hsetSize := (standsFor_words c.setSize).orDefault (standsFor_words _) (hfound "set_size")
  have hoptimized := (standsFor_bool c.optimized).orDefault (standsFor_bool _) (hfound "optimized_algorithm")
  have hpolicy := (standsFor_policies c.policy).orDefault (standsFor_policies _) (hfound "replacement_policy")
  have hports := (standsFor_uint64 c.ports).orDefault (standsFor_uint64 _) (hfound "num_cpu_side_ports")
  exact (bind_of_eq_some hd _).trans <| (bind_of_eq_some hkind _).trans <| (bind_of_eq_some hsize _).trans <|
    (bind_of_eq_some hlatency _).trans <| (bind_of_eq_some hsetSize _).trans <| (bind_of_eq_some hoptimized _).trans <|
    (bind_of_eq_some hpolicy _).trans <| (bind_of_eq_some hports _).trans rfl

end CacheConfig

namespace MemoryConfig

/-- Every field of the memory has a default. -/
def outline : Outline :=
  .record (fun _ => .leaf) (toDocument {}).get?

theorem standsFor (c : MemoryConfig) : StandsFor outline ofDocument? c.toDocument c := by
  refine .record schema (by decide) (.refl _) (fun _ _ => rfl) fun d values hd hfound => ?_
  have hlatency := (standsFor_uint64 c.latency).orDefault (standsFor_uint64 _) (hfound "latency")
  have hbuffer := (standsFor_uint64 c.buffer).orDefault (standsFor_uint64 _) (hfound "request_buffer_size")
  have hrange := c.range.standsFor.orDefault (Size.standsFor _) (hfound "range")
  exact (bind_of_eq_some hd _).trans <| (bind_of_eq_some hlatency _).trans <| (bind_of_eq_some hbuffer _).trans <|
    (bind_of_eq_some hrange _).trans rfl

end MemoryConfig

namespace Config

/-- Every field has a default, also the whole of the cache and of the memory. -/
def outline : Outline :=
  .record
    (fun
      | "cache" => CacheConfig.outline
      | "memory" => MemoryConfig.outline
      | _ => .leaf)
    (toDocument {}).get?

theorem standsFor (c : Config) : StandsFor outline ofDocument? c.toDocument c := by
  refine .record schema (by decide) (.refl _) ?_ fun d values hd hfound => ?_
  · simp only [List.forall_mem_cons]
    exact ⟨rfl, rfl, rfl, c.cache.standsFor.self, c.memory.standsFor.self, nofun⟩
  have hlineSize := (standsFor_uint32 c.lineSize).orDefault (standsFor_uint32 _) (hfound "cache_line_size")
  have hclockPeriod := (standsFor_uint64 c.clockPeriod).orDefault (standsFor_uint64 _) (hfound "clock_period")
  have hseed := (standsFor_uint64 c.seed).orDefault (standsFor_uint64 _) (hfound "seed")
  have hcache := c.cache.standsFor.orDefault (CacheConfig.standsFor _) (hfound "cache")
  have hmemory := c.memory.standsFor.orDefault (MemoryConfig.standsFor _) (hfound "memory")
  exact (bind_of_eq_some hd _).trans <| (bind_of_eq_some hlineSize _).trans <| (bind_of_eq_some hclockPeriod _).trans <|
    (bind_of_eq_some hseed _).trans <| (bind_of_eq_some hcache _).trans <| (bind_of_eq_some hmemory _).trans rfl

end Config

/-! ## Traces -/

theorem AccessKind.ofName?_name (k : AccessKind) : ofName? k.name = some k := by
  cases k <;> rfl

theorem standsFor_bytes (data : Bytes) : StandsFor .leaf (toList? toByte?) (.ofBytes data) data :=
  .leaves fun n _ => standsFor_byte n

namespace Access

/-- The size and the data have defaults. -/
def outline : Outline :=
  .record (fun _ => .leaf) fun
    | "size" => some .null
    | "data" => some .null
    | _ => none

theorem standsFor (a : Access) : StandsFor outline ofDocument? a.toDocument a := by
  have hname : StandsFor .leaf toName? (.text a.kind.name) a.kind.name := .leaf rfl
  have hsizes : ∀ x : Option UInt32, StandsFor .leaf (toOption? toUInt32?) (.ofOption (fun n => .nat n.toNat) x) x :=
    fun _ => standsFor_ofOption fun n _ => ⟨(standsFor_uint32 n).read_eq, nofun⟩
  have hdatas : ∀ x : Option Bytes, StandsFor .leaf (toOption? (toList? toByte?)) (.ofOption .ofBytes x) x :=
    fun _ => standsFor_ofOption fun data _ => ⟨(standsFor_bytes data).read_eq, nofun⟩
  refine .record schema (by decide) ?_ (fun _ _ => rfl) fun d values hd hfound => ?_
  · cases a.data? with
    | none => exact List.sublist_append_left ["kind", "addr", "size"] ["data"]
    | some data => exact .refl _
  obtain ⟨kind, hvalue₀, hkind⟩ := hname.required (hfound "kind")
  obtain ⟨addr, hvalue₁, haddr⟩ := (standsFor_uint64 a.addr).required (hfound "addr")
  have hsize := (hsizes a.size?).orDefault (hsizes none) (hfound "size")
  have hdata : orDefault none (·.toOption? (·.toList? toByte?)) (values "data") = some a.data? := by
    have hfound := hfound "data"
    revert hfound
    cases a.data? with
    | some data => exact (hdatas (some data)).orDefault (hdatas none)
    | none =>
      -- Data that is not said is never written, so nothing stands in its place.
      intro hfound
      generalize values "data" = found at hfound ⊢
      cases hfound
      rfl
  have hfields : d.fields? schema = some [some kind, some addr, values "size", values "data"] :=
    hd.trans (by rw [← hvalue₀, ← hvalue₁]; rfl)
  exact (bind_of_eq_some hfields _).trans <| (bind_of_eq_some hkind _).trans <|
    (bind_of_eq_some a.kind.ofName?_name _).trans <| (bind_of_eq_some haddr _).trans <|
    (bind_of_eq_some hsize _).trans <| (bind_of_eq_some hdata _).trans rfl

end Access

namespace Script

/-- How many responses are refused has a default. -/
def outline : Outline :=
  .record
    (fun
      | "accesses" => .list Access.outline
      | _ => .leaf)
    fun
      | "refuse_responses" => some (.nat 0)
      | _ => none

theorem standsFor (s : Script) : StandsFor outline ofDocument? s.toDocument s := by
  have hlist : StandsFor (.list Access.outline) (toList? Access.ofDocument?) (.list (s.accesses.map Access.toDocument))
      s.accesses := .list fun a _ => a.standsFor
  refine .record schema (by decide) (.refl _) ?_ fun d values hd hfound => ?_
  · simp only [List.forall_mem_cons]
    exact ⟨rfl, hlist.self, nofun⟩
  have hrefuse := (standsFor_uint64 s.refuseResponses).orDefault (standsFor_uint64 0) (hfound "refuse_responses")
  obtain ⟨accesses, hvalue, haccesses⟩ := hlist.required (hfound "accesses")
  have hfields : d.fields? schema = some [values "refuse_responses", some accesses] := hd.trans (by rw [← hvalue]; rfl)
  exact (bind_of_eq_some hfields _).trans <| (bind_of_eq_some hrefuse _).trans <|
    (bind_of_eq_some haccesses _).trans rfl

end Script

namespace Trace

/-- No field of a trace has a default, but those of its scripts do. -/
def outline : Outline :=
  .record (fun _ => .list Script.outline) fun _ => none

theorem standsFor (t : Trace) : StandsFor outline ofDocument? t.toDocument t := by
  have hlist : StandsFor (.list Script.outline) (toList? Script.ofDocument?) (.list (t.scripts.map Script.toDocument))
      t.scripts := .list fun s _ => s.standsFor
  refine .record schema (by decide) (.refl _) ?_ fun d values hd hfound => ?_
  · simp only [List.forall_mem_cons]
    exact ⟨hlist.self, nofun⟩
  obtain ⟨scripts, hvalue, hscripts⟩ := hlist.required (hfound "initiators")
  have hfields : d.fields? schema = some [some scripts] := hd.trans (by rw [← hvalue]; rfl)
  exact (bind_of_eq_some hfields _).trans <| (bind_of_eq_some hscripts _).trans rfl

end Trace

/-! ## Statistics -/

namespace Histogram

/-- All numbers of a histogram are words. -/
structure Words (h : Histogram) : Prop where
  buckets : ∀ n ∈ h.buckets, n < Word.bound
  bucketSize : h.bucketSize < Word.bound
  samples : h.samples < Word.bound
  sum : h.sum < Word.bound
  min : ∀ n ∈ h.min, n < Word.bound
  max : ∀ n ∈ h.max, n < Word.bound

/-- The extremes have defaults. -/
def outline : Outline :=
  .record (fun _ => .leaf) fun
    | "min" => some .null
    | "max" => some .null
    | _ => none

theorem standsFor {h : Histogram} (hw : h.Words) : StandsFor outline ofDocument? h.toDocument h := by
  have hcounts : StandsFor .leaf (toList? toCount?) (.list (h.buckets.map .nat)) h.buckets :=
    .leaves fun n hn => standsFor_count (hw.buckets n hn)
  have hextreme : ∀ {x : Option Nat}, (∀ n ∈ x, n < Word.bound) →
      StandsFor .leaf (toOption? toCount?) (.ofOption .nat x) x := fun hx =>
    standsFor_ofOption fun n hn => ⟨(standsFor_count (hx n hn)).read_eq, nofun⟩
  refine .record schema (by decide) (.refl _) (fun _ _ => rfl) fun d values hd hfound => ?_
  obtain ⟨buckets, hvalue₀, hbuckets⟩ := hcounts.required (hfound "buckets")
  obtain ⟨bucketSize, hvalue₁, hbucketSize⟩ := (standsFor_count hw.bucketSize).required (hfound "bucket_size")
  obtain ⟨samples, hvalue₂, hsamples⟩ := (standsFor_count hw.samples).required (hfound "samples")
  obtain ⟨sum, hvalue₃, hsum⟩ := (standsFor_count hw.sum).required (hfound "sum")
  have hmin := (hextreme hw.min).orDefault (hextreme (x := none) nofun) (hfound "min")
  have hmax := (hextreme hw.max).orDefault (hextreme (x := none) nofun) (hfound "max")
  have hfields : d.fields? schema =
      some [some buckets, some bucketSize, some samples, some sum, values "min", values "max"] :=
    hd.trans (by rw [← hvalue₀, ← hvalue₁, ← hvalue₂, ← hvalue₃]; rfl)
  exact (bind_of_eq_some hfields _).trans <| (bind_of_eq_some hbuckets _).trans <|
    (bind_of_eq_some hbucketSize _).trans <| (bind_of_eq_some hsamples _).trans <| (bind_of_eq_some hsum _).trans <|
    (bind_of_eq_some hmin _).trans <| (bind_of_eq_some hmax _).trans rfl

end Histogram

namespace CacheStats

/-- All numbers of the statistics are words. -/
structure Words (s : CacheStats) : Prop where
  hits : s.hits < Word.bound
  misses : s.misses < Word.bound
  missLatency : s.missLatency.Words

/-- No field of the statistics has a default, but those of the histogram do. -/
def outline : Outline :=
  .record
    (fun
      | "miss_latency" => Histogram.outline
      | _ => .leaf)
    fun _ => none

theorem standsFor {s : CacheStats} (hw : s.Words) : StandsFor outline ofDocument? s.toDocument s := by
  have hlatency := Histogram.standsFor hw.missLatency
  refine .record schema (by decide) (.refl _) ?_ fun d values hd hfound => ?_
  · simp only [List.forall_mem_cons]
    exact ⟨rfl, rfl, hlatency.self, nofun⟩
  obtain ⟨hits, hvalue₀, hhits⟩ := (standsFor_count hw.hits).required (hfound "hits")
  obtain ⟨misses, hvalue₁, hmisses⟩ := (standsFor_count hw.misses).required (hfound "misses")
  obtain ⟨missLatency, hvalue₂, hmissLatency⟩ := hlatency.required (hfound "miss_latency")
  have hfields : d.fields? schema = some [some hits, some misses, some missLatency] :=
    hd.trans (by rw [← hvalue₀, ← hvalue₁, ← hvalue₂]; rfl)
  exact (bind_of_eq_some hfields _).trans <| (bind_of_eq_some hhits _).trans <|
    (bind_of_eq_some hmisses _).trans <| (bind_of_eq_some hmissLatency _).trans rfl

end CacheStats

/-! ## All of them -/

/-- A value is read from its document, also from one that lacks some fields that have
their default value. -/
def RoundTrips {α : Type} (outline : Outline) (write : α → Document) (read : Document → Option α) (a : α) : Prop :=
  read (write a) = some a ∧ ∀ d, Abridges outline (write a) d → read d = some a

theorem Document.StandsFor.roundTrips {α : Type} {outline : Outline} {write : α → Document}
    {read : Document → Option α} {a : α} (h : StandsFor outline read (write a) a) : RoundTrips outline write read a :=
  ⟨h.read_eq, h.abridged⟩

/-- Configurations and traces are always read as they were written, and statistics if
their numbers are words, whatever fields with a default value were left out. -/
theorem documents_round_trip :
    (∀ c, RoundTrips Config.outline Config.toDocument Config.ofDocument? c) ∧
      (∀ t, RoundTrips Trace.outline Trace.toDocument Trace.ofDocument? t) ∧
      (∀ s, s.Words → RoundTrips CacheStats.outline CacheStats.toDocument CacheStats.ofDocument? s) ∧
      ∀ h, h.Words → RoundTrips Histogram.outline Histogram.toDocument Histogram.ofDocument? h :=
  ⟨fun c => c.standsFor.roundTrips, fun t => t.standsFor.roundTrips,
    fun _ hw => (CacheStats.standsFor hw).roundTrips, fun _ hw => (Histogram.standsFor hw).roundTrips⟩

/-- A slower cache, and one hit, written as shortly as it can be. -/
theorem documents_round_trip_of_short :
    Config.ofDocument? (.record [("cache", .record [("latency", .nat 2)])]) = some { cache := { latency := 2 } } ∧
      CacheStats.Words { hits := 1 } ∧
      CacheStats.ofDocument? (.record [("hits", .nat 1), ("misses", .nat 0), ("miss_latency", .record [
        ("buckets", .list (List.replicate 16 (.nat 0))), ("bucket_size", .nat 1), ("samples", .nat 0),
        ("sum", .nat 0)])]) = some { hits := 1 } := by
  obtain ⟨hconfig, -, hstats, -⟩ := documents_round_trip
  have hslow : Abridges Config.outline (Config.toDocument { cache := { latency := 2 } })
      (.record [("cache", .record [("latency", .nat 2)])]) :=
    .drop rfl <| .drop rfl <| .drop rfl <|
      .keep (.drop rfl <| .drop rfl <| .keep rfl <| .drop rfl <| .drop rfl <| .drop rfl <| .drop rfl .nil) <|
        .drop rfl .nil
  have hwords : CacheStats.Words { hits := 1 } :=
    ⟨by decide, by decide, by decide, by decide, by decide, by decide, nofun, nofun⟩
  refine ⟨(hconfig _).2 _ hslow, hwords, (hstats _ hwords).2 _ ?_⟩
  exact .keep rfl <| .keep rfl <|
    .keep (.keep rfl <| .keep rfl <| .keep rfl <| .keep rfl <| .drop rfl <| .drop rfl .nil) .nil

end CacheSim
