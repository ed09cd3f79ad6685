import CacheSim.Yaml.Scalar
import CacheSim.Yaml.Tag

/-!
# Tokens

The marks and the scalars of a text.  Collections that are written by
indentation have tokens for their start and their end as well, and so has a key
that is only known by the colon behind it.  The names of anchors are replaced by
numbers.
-/

namespace CacheSim.Yaml

/-- A mark or a scalar. -/
inductive Token where
  /-- The document is written for a version of the language. -/
  | version (major minor : Nat)
  /-- A handle stands for the start of an address. -/
  | handle (handle : String) (address : Tag)
  | documentStart
  | documentEnd
  /-- A list starts whose items have hyphens. -/
  | blockList
  /-- A record starts whose entries are on lines of their own. -/
  | blockRecord
  | blockEnd
  | openBracket
  | closeBracket
  | openBrace
  | closeBrace
  | comma
  /-- The hyphen in front of an item. -/
  | item
  /-- A key follows. -/
  | key
  /-- The value of a key follows. -/
  | value
  /-- The node with a number stands here, too. -/
  | reference (anchor : Nat)
  /-- The number of the node that follows. -/
  | anchor (anchor : Nat)
  /-- What the node that follows is: a handle and the rest of an address. -/
  | tag (handle : String) (rest : Tag)
  | scalar (style : Style) (text : String)
  deriving DecidableEq, Inhabited

/-- The names of the anchors so far, each with the number it stands for. -/
structure Anchors where
  numbers : List (String × Nat) := []
  deriving Inhabited

namespace Anchors

/-- Names a node.  Its number is the number of the names in use; a name that is
used again moves to the new node, so that the next new name gets the same
number. -/
def define (a : Anchors) (name : String) : Nat × Anchors :=
  let n := a.numbers.length
  (n, { numbers := (name, n) :: a.numbers.filter (·.1 ≠ name) })

/-- The number that a name stands for. -/
def find? (a : Anchors) (name : String) : Option Nat :=
  a.numbers.lookup name

end Anchors

end CacheSim.Yaml
