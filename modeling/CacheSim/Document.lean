/-!
# Documents

The tree that a text in one of the document formats stands for, before anybody
asks what it describes.  A record keeps its entries in order and repeated keys,
so that a reader can refuse them.  `fields` matches a record against the names
that a reader knows.
-/

namespace CacheSim

/-- A tree of records, lists and scalars. -/
inductive Document where
  | null
  /-- A text that holds half of a surrogate pair, or a record with such a key:
  it has a place in the tree, but nobody can read it. -/
  | garbled
  | bool (b : Bool)
  | integer (i : Int)
  /-- A number that is not written as an integer. -/
  | real (spelling : String)
  | text (s : String)
  | list (items : List Document)
  | record (entries : List (String × Document))
  deriving Inhabited

namespace Document

/-- A natural number. -/
def nat (n : Nat) : Document :=
  integer n

/-- The value of the first entry with a key. -/
def get? (d : Document) (key : String) : Option Document :=
  match d with
  | record entries => List.lookup key entries
  | _ => none

/-! ## Scalars -/

/-- A natural number below a bound. -/
def toNat? (bound : Nat) : Document → Option Nat
  | integer (.ofNat n) => if n < bound then some n else none
  | _ => none

/-- A word of 64 bits. -/
def toUInt64? (d : Document) : Option UInt64 :=
  (d.toNat? UInt64.size).map UInt64.ofNat

/-- A word of 32 bits. -/
def toUInt32? (d : Document) : Option UInt32 :=
  (d.toNat? UInt32.size).map UInt32.ofNat

/-- A byte. -/
def toByte? (d : Document) : Option UInt8 :=
  (d.toNat? UInt8.size).map UInt8.ofNat

/-- A truth value. -/
def toBool? : Document → Option Bool
  | bool b => some b
  | _ => none

/-- The name of an alternative.  It may also be the only key of a record whose
value is null. -/
def toName? : Document → Option String
  | text s => some s
  | record [(s, null)] => some s
  | _ => none

/-! ## Optional values and lists -/

/-- A value that may be left out or null. -/
def toOption? {α : Type} (read : Document → Option α) : Document → Option (Option α)
  | null => some none
  | d => (read d).map some

/-- A list. -/
def toList? {α : Type} (read : Document → Option α) : Document → Option (List α)
  | list items => items.mapM read
  | _ => none

/-- The document of an optional value. -/
def ofOption {α : Type} (write : α → Document) : Option α → Document
  | none => null
  | some a => write a

/-! ## Records -/

/-- What a reader expects of a record. -/
structure Schema where
  /-- The names of the fields in their order. -/
  names : List String
  /-- How many of the fields must be there if the record is written as a list. -/
  required : Nat := 0
  /-- Other fields are refused. -/
  closed : Bool := false

/-- No name occurs twice. -/
def distinct : List String → Bool
  | [] => true
  | name :: rest => !rest.contains name && distinct rest

/-- The values of the fields of a record, in the order of the schema, as far as
they are there.  A known field must not be repeated.  A record may also be
written as the list of its values, the last ones left out. -/
def fields? (schema : Schema) (d : Document) : Option (List (Option Document)) :=
  match d with
  | record entries =>
    let keys := entries.map (·.1)
    let known := keys.filter schema.names.contains
    if distinct known && (!schema.closed || known.length == keys.length) then
      some (schema.names.map fun name => List.lookup name entries)
    else none
  | list items =>
    if schema.required ≤ items.length ∧ items.length ≤ schema.names.length then
      some (schema.names.mapIdx fun i _ => items[i]?)
    else none
  | _ => none

/-- The value of a field that may be left out. -/
def orDefault {α : Type} (default : α) (read : Document → Option α) : Option Document → Option α
  | none => some default
  | some d => read d

end Document

end CacheSim
