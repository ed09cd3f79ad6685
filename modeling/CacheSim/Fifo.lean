import CacheSim.Word

/-!
# First in, first out

A queue that may have a limit.  The limit says when the queue counts as full;
it does not stop anybody from adding more.
-/

namespace CacheSim

/-- A queue with an optional limit. -/
structure Fifo (α : Type) where
  /-- The entries, the oldest one first. -/
  items : List α := []
  limit : Option Nat := none
  deriving DecidableEq, Inhabited

namespace Fifo

variable {α : Type}

/-- The queue without entries. -/
def empty (limit : Option Nat := none) : Fifo α :=
  { limit }

/-- The number of entries. -/
def size (q : Fifo α) : Nat :=
  q.items.length

def isEmpty (q : Fifo α) : Bool :=
  q.items.isEmpty

/-- The limit is reached. -/
def isFull (q : Fifo α) : Bool :=
  match q.limit with
  | some limit => limit ≤ q.size
  | none => false

/-- Adds an entry. -/
def enqueue (q : Fifo α) (a : α) : Fifo α :=
  { q with items := q.items ++ [a] }

/-- The oldest entry. -/
def first? (q : Fifo α) : Option α :=
  q.items.head?

/-- Takes the oldest entry. -/
def dequeue? (q : Fifo α) : Option (α × Fifo α) :=
  match q.items with
  | [] => none
  | a :: rest => some (a, { q with items := rest })

/-- Whether `n` more entries stay within the limit. -/
def canFit (q : Fifo α) (n : Nat) : Except Fault Bool :=
  match q.limit with
  | some limit => do
    let total ← Word.add q.size n
    return decide (total ≤ limit)
  | none => .ok true

/-- Takes the leading entries that satisfy `p`. -/
def drainWhile (q : Fifo α) (p : α → Bool) : List α × Fifo α :=
  (q.items.takeWhile p, { q with items := q.items.dropWhile p })

/-- The number of entries, the limit, and a list of the entries, one a line. -/
def text (render : α → String) (q : Fifo α) : String :=
  let count := toString q.size
  let limit := (q.limit.map toString).getD ""
  let body :=
    if q.items.isEmpty then "[]"
    else
      let lines := q.items.map fun a => "    \"" ++ render a ++ "\",\n"
      "[\n" ++ String.join lines ++ "]"
  "Fifo(" ++ "".pushn ' ' (2 - count.length) ++ count ++ "/"
    ++ limit ++ "".pushn ' ' (2 - limit.length) ++ ")" ++ body

end Fifo

end CacheSim
