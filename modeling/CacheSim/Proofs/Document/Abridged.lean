import CacheSim.Document
import Mathlib.Data.List.Forall2
import Mathlib.Data.List.Nodup

/-!
# Abridged documents

A reader puts the default in the place of a field that a record lacks, so that whoever
writes a document may leave out every field that has its default value.  An `Outline` says
which fields have a default, on every level of a document, and `Abridges` that one
document is another without some of those fields.

A document stands for a value (`StandsFor`) if it is read as that value however it is
abridged.  This is shown from the leaves up: `StandsFor.leaf`, `StandsFor.list`, and
`StandsFor.record` for a reader that asks for the fields of a schema.  What such a reader
finds in the place of one field is `Found`, and what it reads there are
`StandsFor.orDefault` and `StandsFor.required`.
-/

namespace CacheSim.Document

/-- Which fields of a document have a default. -/
inductive Outline where
  | leaf
  | list (item : Outline)
  /-- A record, by the outlines and the default values of its fields. -/
  | record (field : String → Outline) (default? : String → Option Document)

variable {same : String → Document → Document → Prop} {default? : String → Option Document}
  {entries entries' : List (String × Document)}

/-- The entries of a record without some that have their default value; of the others
each is the `same`. -/
inductive Shortened (same : String → Document → Document → Prop) (default? : String → Option Document) :
    List (String × Document) → List (String × Document) → Prop
  | nil : Shortened same default? [] []
  | keep {name : String} {d d' : Document} {entries entries' : List (String × Document)} :
    same name d d' → Shortened same default? entries entries' →
      Shortened same default? ((name, d) :: entries) ((name, d') :: entries')
  | drop {name : String} {d : Document} {entries entries' : List (String × Document)} :
    default? name = some d → Shortened same default? entries entries' →
      Shortened same default? ((name, d) :: entries) entries'

/-- The second document is the first without some fields that have their default value. -/
def Abridges : Outline → Document → Document → Prop
  | .leaf, d, d' => d' = d
  | .list item, list items, list items' => List.Forall₂ (Abridges item) items items'
  | .record field default?, record entries, record entries' =>
    Shortened (fun name => Abridges (field name)) default? entries entries'
  | _, _, _ => False

/-! ## The fields of a shortened record -/

theorem shortened_self (h : ∀ entry ∈ entries, same entry.1 entry.2 entry.2) :
    Shortened same default? entries entries := by
  induction entries with
  | nil => exact .nil
  | cons entry entries ih =>
    exact .keep (h entry (List.mem_cons_self ..)) (ih fun e he => h e (List.mem_cons_of_mem _ he))

theorem Shortened.sublist (h : Shortened same default? entries entries') :
    (entries'.map (·.1)).Sublist (entries.map (·.1)) := by
  induction h with
  | nil => exact .slnil
  | keep _ _ ih => exact ih.cons_cons _
  | drop _ _ ih => exact ih.cons _

/-- What stands in the place of a field: the same as before, or nothing if that was the
default. -/
inductive Found (same : Document → Document → Prop) (default? : Option Document) :
    Option Document → Option Document → Prop
  | absent : Found same default? none none
  | kept {d d' : Document} : same d d' → Found same default? (some d) (some d')
  | dropped {d : Document} : default? = some d → Found same default? (some d) none

theorem lookup_eq_none {name : String} (h : name ∉ entries.map (·.1)) : entries.lookup name = none := by
  rw [List.lookup_eq_none_iff]
  intro entry hentry
  exact bne_iff_ne.mpr fun heq => h (heq ▸ List.mem_map_of_mem hentry)

theorem lookup_cons_of_ne {name key : String} (h : name ≠ key) (d : Document) :
    ((key, d) :: entries).lookup name = entries.lookup name := by
  rw [List.lookup_cons, beq_eq_false_iff_ne.mpr h]

theorem Shortened.found (h : Shortened same default? entries entries') (hnodup : (entries.map (·.1)).Nodup)
    (name : String) : Found (same name) (default? name) (entries.lookup name) (entries'.lookup name) := by
  induction h with
  | nil => exact .absent
  | @keep key d d' entries entries' hsame _ ih =>
    obtain ⟨-, hnodup⟩ := List.nodup_cons.mp hnodup
    by_cases hkey : name = key
    · subst hkey
      rw [List.lookup_cons_self, List.lookup_cons_self]
      exact .kept hsame
    · rw [lookup_cons_of_ne hkey, lookup_cons_of_ne hkey]
      exact ih hnodup
  | @drop key d entries entries' hdefault hrest ih =>
    obtain ⟨habsent, hnodup⟩ := List.nodup_cons.mp hnodup
    by_cases hkey : name = key
    · -- The rest of the record does not have the key a second time.
      subst hkey
      rw [List.lookup_cons_self, lookup_eq_none fun hmem => habsent (hrest.sublist.subset hmem)]
      exact .dropped hdefault
    · rw [lookup_cons_of_ne hkey]
      exact ih hnodup

theorem distinct_of_nodup {names : List String} (h : names.Nodup) : distinct names = true := by
  induction names with
  | nil => rfl
  | cons name names ih =>
    obtain ⟨habsent, h⟩ := List.nodup_cons.mp h
    simp [distinct, habsent, ih h]

/-- A record of known fields that are not repeated is taken apart. -/
theorem fields?_of_sublist {schema : Schema} (hnodup : schema.names.Nodup)
    (hnames : (entries.map (·.1)).Sublist schema.names) :
    (record entries).fields? schema = some (schema.names.map fun name => entries.lookup name) := by
  have hall : (entries.map (·.1)).filter schema.names.contains = entries.map (·.1) :=
    List.filter_eq_self.mpr fun name hname => List.contains_iff_mem.mpr (hnames.subset hname)
  simp only [fields?, hall, distinct_of_nodup (hnodup.sublist hnames), beq_self_eq_true, Bool.or_true, Bool.and_self,
    if_true]

/-! ## What a document stands for -/

variable {α : Type} {outline : Outline} {read : Document → Option α} {a b : α} {d e : Document}

/-- The document and all its abridgements are read as one value. -/
structure StandsFor (outline : Outline) (read : Document → Option α) (d : Document) (a : α) : Prop where
  self : Abridges outline d d
  abridged : ∀ d', Abridges outline d d' → read d' = some a

theorem StandsFor.read_eq (h : StandsFor outline read d a) : read d = some a :=
  h.abridged d h.self

theorem StandsFor.unique (ha : StandsFor outline read d a) (hb : StandsFor outline read d b) : a = b :=
  Option.some.inj (ha.read_eq.symm.trans hb.read_eq)

theorem StandsFor.leaf (h : read d = some a) : StandsFor .leaf read d a where
  self := rfl
  abridged d' hd := by
    obtain rfl : d' = d := hd
    exact h

theorem mapM_of_abridges {write : α → Document} {as : List α} {items : List Document}
    (h : ∀ a ∈ as, StandsFor outline read (write a) a)
    (hitems : List.Forall₂ (Abridges outline) (as.map write) items) : items.mapM read = some as := by
  induction as generalizing items with
  | nil =>
    cases hitems
    rfl
  | cons a as ih =>
    obtain ⟨d, rest, hd, hrest, rfl⟩ := List.forall₂_cons_left_iff.mp hitems
    rw [List.mapM_cons, (h a (List.mem_cons_self ..)).abridged d hd,
      ih (fun b hb => h b (List.mem_cons_of_mem a hb)) hrest]
    rfl

theorem StandsFor.list {write : α → Document} {as : List α} (h : ∀ a ∈ as, StandsFor outline read (write a) a) :
    StandsFor (.list outline) (toList? read) (.list (as.map write)) as where
  self := by
    show List.Forall₂ (Abridges outline) (as.map write) (as.map write)
    rw [List.forall₂_same]
    intro d hd
    obtain ⟨a, ha, rfl⟩ := List.mem_map.mp hd
    exact (h a ha).self
  abridged d' hd := by
    cases d' with
    | list items => exact mapM_of_abridges h hd
    | _ => exact hd.elim

/-- A list of leaves is a leaf as well. -/
theorem StandsFor.leaves {write : α → Document} {as : List α} (h : ∀ a ∈ as, StandsFor .leaf read (write a) a) :
    StandsFor .leaf (toList? read) (.list (as.map write)) as :=
  .leaf (StandsFor.list h).read_eq

/-- A record stands for a value if a reader of its fields makes that value of what it
may find in their places. -/
theorem StandsFor.record (schema : Schema) {field : String → Outline} (hnodup : schema.names.Nodup)
    (hnames : (entries.map (·.1)).Sublist schema.names)
    (hself : ∀ entry ∈ entries, Abridges (field entry.1) entry.2 entry.2)
    (hread : ∀ d values, d.fields? schema = some (schema.names.map values) →
      (∀ name, Found (Abridges (field name)) (default? name) (entries.lookup name) (values name)) → read d = some a) :
    StandsFor (.record field default?) read (.record entries) a where
  self := shortened_self hself
  abridged d' hd := by
    cases d' with
    | record entries' =>
      have hshort : Shortened (fun name => Abridges (field name)) default? entries entries' := hd
      exact hread _ (fun name => entries'.lookup name) (fields?_of_sublist hnodup (hshort.sublist.trans hnames))
        (hshort.found (hnodup.sublist hnames))
    | _ => exact hd.elim

/-- A field that was left out had the value that the reader puts in its place. -/
theorem StandsFor.orDefault {default : α} {found : Option Document} (hd : StandsFor outline read d a)
    (hdefault : StandsFor outline read e default)
    (hfound : Found (Abridges outline) (some e) (some d) found) : Document.orDefault default read found = some a := by
  cases hfound with
  | kept hsame => exact hd.abridged _ hsame
  | dropped hsome =>
    obtain rfl := Option.some.inj hsome
    exact congrArg some (hdefault.unique hd)

/-- A field without default is there. -/
theorem StandsFor.required {found : Option Document} (hd : StandsFor outline read d a)
    (hfound : Found (Abridges outline) none (some d) found) : ∃ d', found = some d' ∧ read d' = some a := by
  cases hfound with
  | kept hsame => exact ⟨_, rfl, hd.abridged _ hsame⟩
  | dropped hsome => cases hsome

end CacheSim.Document
