import CacheSim.Document
import CacheSim.Document.Shape
import CacheSim.Yaml.Node

/-!
# What nodes mean

What a scalar means depends on what is asked for.  Only a plain scalar, or one
with a tag of a standard type, can mean something else than its text.
References are followed where their nodes are read, and the number of times is
bounded, so that a short text cannot stand for a huge document.
-/

namespace CacheSim.Yaml

/-! ## Words -/

/-- A natural number without a sign: decimal without a needless zero in front, or
hexadecimal, octal or binary behind a mark. -/
def unsigned? : List Char → Option Nat
  | '0' :: 'x' :: ds => digitsIn? 16 ds
  | '0' :: 'o' :: ds => digitsIn? 8 ds
  | '0' :: 'b' :: ds => digitsIn? 2 ds
  | ['0'] => some 0
  | '0' :: _ => none
  | ds => Digits.value? ds

/-- The natural number that a text means; a plus may come first. -/
def natural? : List Char → Option Nat
  | '+' :: ds => unsigned? ds
  | ds => unsigned? ds

/-- The integer that a text means. -/
def integer? : List Char → Option Int
  | '-' :: ds => (unsigned? ds).map fun n => -(n : Int)
  | ds => (natural? ds).map fun n => (n : Int)

/-- A word for null. -/
def isNullWord (s : String) : Bool :=
  ["~", "null", "Null", "NULL"].contains s

/-- The truth value that a text means. -/
def truth? (s : String) : Option Bool :=
  if ["true", "True", "TRUE"].contains s then some true
  else if ["false", "False", "FALSE"].contains s then some false
  else none

namespace Node

/-! ## Scalars -/

/-- The text of a scalar. -/
def text? : Node → Option String
  | scalar _ _ s => some s
  | _ => none

/-- A plain scalar without a text. -/
def isEmpty : Node → Bool
  | scalar _ .plain s => s.isEmpty
  | _ => false

/-- The text of a scalar that may mean a value of a type: it is plain, or it is a
block with the tag of the type. -/
def textOf? (type : Tag) : Node → Option String
  | scalar _ .plain s => some s
  | scalar about .literal s => if about.tag = some type then some s else none
  | _ => none

/-- A node where a truth value is asked for. -/
def flag? (n : Node) : Option Document :=
  (n.textOf? Tag.bool >>= truth?).map .bool

/-- A node where a natural number is asked for. -/
def number? (n : Node) : Option Document :=
  (n.textOf? Tag.integer >>= (natural? ·.toList)).map .nat

/-- A plain scalar without a tag where a number or a text is asked for. -/
def untagged? (s : String) : Option Document :=
  match integer? s.toList with
  | some i => some (.integer i)
  | none => if s.isEmpty || isNullWord s || (truth? s).isSome then none else some (.text s)

/-- A node where a number or a text is asked for.  A tag of another standard type
forbids both, and a tag that only the document knows does so if it is a text. -/
def numberOrText? : Node → Option Document
  | scalar { tag := none, .. } style s => if style = .plain then untagged? s else some (.text s)
  | scalar { tag := some t, .. } style s =>
    if t = Tag.integer then (integer? s.toList).map .integer
    else if t = Tag.bool ∨ t = Tag.real ∨ t = Tag.null then none
    else if (Tag.localName? t).isSome then none
    else if t.head? = some 0x21 ∧ style = .plain then untagged? s
    else some (.text s)
  | _ => none

/-- A node where the name of an alternative is asked for.  The name may be a tag in
front of nothing. -/
def name? : Node → Option Document
  | scalar about style s =>
    match about.tag >>= Tag.localName? with
    | some name => if style = .plain ∧ (s.isEmpty ∨ isNullWord s) then some (.text name) else none
    | none => some (.text s)
  | _ => none

/-- Whether a node is null where a value may be left out; none if it says that it is
null, but by another word. -/
def isNull? : Node → Option Bool
  | scalar about .plain s =>
    match about.tag with
    | none => some (s.isEmpty || isNullWord s)
    | some t => if t = Tag.null then (if isNullWord s then some true else none) else some false
  | _ => some false

/-! ## Trees -/

/-- The nodes by their numbers.  The last node with a number counts. -/
abbrev Targets := List (Nat × Node)

/-- The nodes of a tree by their numbers. -/
def targets (n : Node) : Targets :=
  n.nodes.filterMap fun n => n.anchor?.map fun a => (a, n)

/-- The number of places where a node starts or a collection ends. -/
def extent (n : Node) : Nat :=
  n.nodes.foldl (fun k n => k + match n with
    | list .. | record .. => 2
    | _ => 1) 0

/-- Reading nodes, with the number of references that may still be followed. -/
abbrev Reading := StateT Nat Option

/-- The node that is meant by a node. -/
def follow (targets : Targets) : Node → Reading Node
  | reference a => do
    let left ← get
    if left = 0 then failure
    set (left - 1)
    targets.lookup a
  | n => pure n

/-- The items of a list.  A list of which nothing is written has none. -/
def items? : Node → Option (List Node)
  | list _ items => some items
  | n => if n.isEmpty then some [] else none

/-- The entries of a record.  A record of which nothing is written has none. -/
def entries? : Node → Option (List (Node × Node))
  | record _ entries => some entries
  | n => if n.isEmpty then some [] else none

/-- The document that a node means where a shape is asked for.  What stands at a
key that the reader does not know has no meaning. -/
def read (targets : Targets) : Document.Shape → Node → Reading Document
  | .flag, n => do (← n.follow targets).flag?
  | .number, n => do (← n.follow targets).number?
  | .numberOrText, n => do (← n.follow targets).numberOrText?
  | .name, n => do (← n.follow targets).name?
  | .optional shape, n => do
    let n ← n.follow targets
    if ← n.isNull? then return .null else read targets shape n
  | .list item, n => do
    let items ← (← n.follow targets).items?
    return .list (← items.mapM (read targets item))
  | .record names field, n => do
    let entries ← (← n.follow targets).entries?
    return .record (← entries.mapM fun (k, v) => do
      let key ← (← k.follow targets).text?
      if names.contains key then return (key, ← read targets (field key) v)
      else return (key, .null))

/-- How often the references of a tree may be followed. -/
def allowance (n : Node) : Nat :=
  100 * n.extent

end Node

/-- The document that a text means where a shape is asked for. -/
def parse? (shape : Document.Shape) (s : String) : Option Document := do
  let n ← Node.ofTokens? (← Token.ofChars? s.toList)
  (n.read n.targets shape).run' n.allowance

end CacheSim.Yaml
