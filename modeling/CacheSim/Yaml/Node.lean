import CacheSim.Yaml.Lexer

/-!
# From tokens to nodes

A node is a scalar, a list or a record, or it refers to a node with a number.
The grammar of the tokens says where a node may be left out, and an empty scalar
stands for it then.
-/

namespace CacheSim.Yaml

/-- What may be said in front of a node. -/
structure Properties where
  /-- The number by which other places refer to it. -/
  anchor : Option Nat := none
  tag : Option Tag := none
  deriving DecidableEq, Inhabited

/-- A node as it was written. -/
inductive Node where
  | reference (anchor : Nat)
  | scalar (about : Properties) (style : Style) (text : String)
  | list (about : Properties) (items : List Node)
  | record (about : Properties) (entries : List (Node × Node))
  deriving Inhabited

namespace Node

/-- The node that stands where nothing was written. -/
def empty : Node :=
  .scalar {} .plain ""

/-- The number by which other places refer to a node. -/
def anchor? : Node → Option Nat
  | reference _ => none
  | scalar about _ _ | list about _ | record about _ => about.anchor

mutual

/-- All nodes of a tree in front of those in `done`, the last one first. -/
def nodesOn (done : List Node) : Node → List Node
  | .list about items => nodesOfItems (.list about items :: done) items
  | .record about entries => nodesOfEntries (.record about entries :: done) entries
  | n => n :: done

/-- All nodes of items in front of those in `done`, the last one first. -/
def nodesOfItems (done : List Node) : List Node → List Node
  | [] => done
  | n :: ns => nodesOfItems (nodesOn done n) ns

/-- All nodes of entries in front of those in `done`, the last one first. -/
def nodesOfEntries (done : List Node) : List (Node × Node) → List Node
  | [] => done
  | (k, v) :: es => nodesOfEntries (nodesOn (nodesOn done k) v) es

end

/-- All nodes of a tree, the last one first. -/
def nodes (n : Node) : List Node :=
  n.nodesOn []

end Node

/-! ## The grammar -/

/-- The handles of a document. -/
abbrev Handles := List (String × Tag)

/-- The handles that every document knows, unless it says otherwise. -/
def standardHandles : Handles :=
  [("!", Tag.ofText "!"), ("!!", Tag.standard)]

/-- The tag of a handle and the rest of an address. -/
def Handles.tag? (handles : Handles) (handle : String) (rest : Tag) : Option Tag :=
  if handle.isEmpty then some rest else (handles.lookup handle).map (· ++ rest)

/-- The properties in front of a node, each at most once, and the tokens behind them. -/
def properties? (handles : Handles) : List Token → Option (Properties × List Token)
  | .anchor n :: .tag handle rest :: ts =>
    (handles.tag? handle rest).map fun t => ({ anchor := some n, tag := some t }, ts)
  | .tag handle rest :: .anchor n :: ts =>
    (handles.tag? handle rest).map fun t => ({ anchor := some n, tag := some t }, ts)
  | .anchor n :: ts => some ({ anchor := some n }, ts)
  | .tag handle rest :: ts => (handles.tag? handle rest).map fun t => ({ tag := some t }, ts)
  | ts => some ({}, ts)

/-- A scalar of a token.  A single exclamation mark says nothing about it. -/
def Node.ofScalar (about : Properties) (style : Style) (text : String) : Node :=
  .scalar { about with tag := about.tag.filter (· ≠ Tag.ofText "!") } style text

/-- A node of which nothing but its properties is written, if there are any. -/
def Node.bare? (about : Properties) (ts : List Token) : Option (Node × List Token) :=
  if about.anchor.isSome || about.tag.isSome then some (.scalar about .plain "", ts) else none

/-- The tokens in front of which a node may be left out, by the collection that it
is in. -/
def isNext (expected : List Token) (ts : List Token) : Bool :=
  ts.head?.any expected.contains

/-- What may follow an item of a list by indentation. -/
def endsItem : List Token → Bool :=
  isNext [.item, .blockEnd]

/-- What may follow an item of a list whose hyphens are not indented. -/
def endsBareItem : List Token → Bool :=
  isNext [.item, .key, .value, .blockEnd]

/-- What may follow a key or a value of a record by indentation. -/
def endsEntry : List Token → Bool :=
  isNext [.key, .value, .blockEnd]

/-- What may follow an item of a list within brackets. -/
def endsFlowItem : List Token → Bool :=
  isNext [.comma, .closeBracket]

/-- What may follow a value of a record within braces. -/
def endsFlowEntry : List Token → Bool :=
  isNext [.comma, .closeBrace]

mutual

/-- A node.  It may be a collection by indentation if `block` says so, and if
`bare` says so, a list whose hyphens are not indented. -/
def node? (handles : Handles) : Nat → Bool → Bool → List Token → Option (Node × List Token)
  | 0, _, _, _ => none
  | _, _, _, .reference n :: ts => some (.reference n, ts)
  | fuel + 1, block, bare, ts => do
    let (about, ts) ← properties? handles ts
    match block, bare, ts with
    | _, true, .item :: _ =>
      let (ns, ts) ← bareItems? handles fuel [] ts
      return (.list about ns, ts)
    | _, _, .scalar style text :: ts => return (.ofScalar about style text, ts)
    | _, _, .openBracket :: ts =>
      let (ns, ts) ← flowItems? handles fuel true [] ts
      return (.list about ns, ts)
    | _, _, .openBrace :: ts =>
      let (es, ts) ← flowEntries? handles fuel true [] ts
      return (.record about es, ts)
    | true, _, .blockList :: ts =>
      let (ns, ts) ← items? handles fuel [] ts
      return (.list about ns, ts)
    | true, _, .blockRecord :: ts =>
      let (es, ts) ← entries? handles fuel [] ts
      return (.record about es, ts)
    | _, _, ts => Node.bare? about ts

/-- A node, or an empty one if it is left out. -/
def orEmpty? (handles : Handles) :
    Nat → Bool → Bool → Bool → List Token → Option (Node × List Token)
  | 0, _, _, _, _ => none
  | fuel + 1, absent, block, bare, ts =>
    if absent then some (.empty, ts) else node? handles fuel block bare ts

/-- A key, which may be left out, and the value behind its mark, which may be left
out where `ends` says so, or together with the mark. -/
def entry? (handles : Handles) :
    Nat → (List Token → Bool) → Bool → Bool → List Token →
      Option ((Node × Node) × List Token)
  | 0, _, _, _, _ => none
  | fuel + 1, ends, absent, block, ts => do
    let (k, ts) ← orEmpty? handles fuel absent block block ts
    match ts with
    | .value :: ts =>
      let (v, ts) ← orEmpty? handles fuel (ends ts) block block ts
      return ((k, v), ts)
    | ts => return ((k, .empty), ts)

/-- The items of a list by indentation, behind those in `done`. -/
def items? (handles : Handles) :
    Nat → List Node → List Token → Option (List Node × List Token)
  | fuel + 1, done, .item :: ts => do
    let (n, ts) ← orEmpty? handles fuel (endsItem ts) true false ts
    items? handles fuel (n :: done) ts
  | _, done, .blockEnd :: ts => some (done.reverse, ts)
  | _, _, _ => none

/-- The items of a list whose hyphens are not indented, behind those in `done`. -/
def bareItems? (handles : Handles) :
    Nat → List Node → List Token → Option (List Node × List Token)
  | 0, _, _ => none
  | fuel + 1, done, .item :: ts => do
    let (n, ts) ← orEmpty? handles fuel (endsBareItem ts) true false ts
    bareItems? handles fuel (n :: done) ts
  | _, done, ts => some (done.reverse, ts)

/-- The entries of a record by indentation, behind those in `done`. -/
def entries? (handles : Handles) :
    Nat → List (Node × Node) → List Token → Option (List (Node × Node) × List Token)
  | fuel + 1, done, .key :: ts => do
    let (e, ts) ← entry? handles fuel endsEntry (endsEntry ts) true ts
    entries? handles fuel (e :: done) ts
  | _, done, .blockEnd :: ts => some (done.reverse, ts)
  | _, _, _ => none

/-- The items of a list within brackets, behind those in `done`.  A comma stands
between two of them, and there may be one at the end. -/
def flowItems? (handles : Handles) :
    Nat → Bool → List Node → List Token → Option (List Node × List Token)
  | _, _, done, .closeBracket :: ts => some (done.reverse, ts)
  | _, false, done, .comma :: .closeBracket :: ts => some (done.reverse, ts)
  | fuel + 1, false, done, .comma :: ts => do
    let (n, ts) ← flowItem? handles fuel ts
    flowItems? handles fuel false (n :: done) ts
  | fuel + 1, true, done, ts => do
    let (n, ts) ← flowItem? handles fuel ts
    flowItems? handles fuel false (n :: done) ts
  | _, _, _, _ => none

/-- An item of a list within brackets.  A key with its value is a record; where the
key itself is left out, the token behind its mark is passed over. -/
def flowItem? (handles : Handles) : Nat → List Token → Option (Node × List Token)
  | 0, _ => none
  | fuel + 1, .key :: ts => do
    let absent := endsFlowItem ts || isNext [.value] ts
    let (e, ts) ← entry? handles fuel endsFlowItem absent false (if absent then ts.tail else ts)
    return (.record {} [e], ts)
  | fuel + 1, ts => node? handles fuel false false ts

/-- The entries of a record within braces, behind those in `done`. -/
def flowEntries? (handles : Handles) :
    Nat → Bool → List (Node × Node) → List Token → Option (List (Node × Node) × List Token)
  | _, _, done, .closeBrace :: ts => some (done.reverse, ts)
  | _, false, done, .comma :: .closeBrace :: ts => some (done.reverse, ts)
  | fuel + 1, false, done, .comma :: ts => do
    let (e, ts) ← flowEntry? handles fuel ts
    flowEntries? handles fuel false (e :: done) ts
  | fuel + 1, true, done, ts => do
    let (e, ts) ← flowEntry? handles fuel ts
    flowEntries? handles fuel false (e :: done) ts
  | _, _, _, _ => none

/-- An entry of a record within braces.  A key without a mark has no value. -/
def flowEntry? (handles : Handles) : Nat → List Token → Option ((Node × Node) × List Token)
  | 0, _ => none
  | fuel + 1, .key :: ts =>
    entry? handles fuel endsFlowEntry (endsFlowEntry ts || isNext [.value] ts) false ts
  | fuel + 1, ts => do
    let (k, ts) ← node? handles fuel false false ts
    return ((k, .empty), ts)

end

/-! ## Documents -/

/-- The directives in front of a document, and the tokens behind them.  There is at
most one version, and every handle is said once. -/
def directives? (versioned : Bool) (handles : Handles) :
    List Token → Option (Handles × List Token)
  | .version major minor :: ts =>
    if !versioned && major = 1 && (minor = 1 || minor = 2) then directives? true handles ts
    else none
  | .handle handle address :: ts =>
    if handles.any (·.1 == handle) then none
    else directives? versioned ((handle, address) :: handles) ts
  | ts => some (handles, ts)

/-- The document of the tokens of a text, which hold at most one.  A document may be
empty, but one with directives has a mark where it starts. -/
def Node.ofTokens? (ts : List Token) : Option Node := do
  if ts.isEmpty then return .empty
  let fuel := 16 * (ts.length + 2)
  let (handles, body) ← directives? false [] ts
  let handles := handles ++ standardHandles
  let (n, rest) ← match body with
    | .documentStart :: body =>
      orEmpty? handles fuel (body.isEmpty || isNext [.documentEnd] body) true false body
    | _ => if body.length < ts.length then none else node? handles fuel true false body
  if rest.all (· == .documentEnd) then return n else none

end CacheSim.Yaml
