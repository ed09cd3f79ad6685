import CacheSim.Fault

/-!
# The journal

Components note what they do in a journal.  A note has a level and a text that
is only made when somebody reads it, and a journal keeps the notes up to its
own level.  A note about a packet beyond the last address has no text:
`Journal.fault?` finds the first such note.
-/

namespace CacheSim

/-- How much detail a note gives. -/
inductive Level where
  | info
  | debug
  | trace
  deriving DecidableEq, Ord

namespace Level

/-- The name written before a note. -/
def name : Level → String
  | info => "INFO"
  | debug => "DEBUG"
  | trace => "TRACE"

/-- The level of a lower case name. -/
def ofName? : String → Option Level
  | "info" => some info
  | "debug" => some debug
  | "trace" => some trace
  | _ => none

end Level

/-- A remark of a component. -/
structure Note where
  level : Level
  text : Unit → Except Fault String

/-- The notes up to a level, in order. -/
structure Journal where
  /-- The greatest level kept; nothing is kept if there is none. -/
  level : Option Level := none
  notes : Array Note := #[]

namespace Journal

/-- The journal that keeps nothing. -/
def off : Journal := {}

/-- Appends a note, if its level is kept. -/
def record (j : Journal) (n : Note) : Journal :=
  match j.level with
  | none => j
  | some l => if (compare n.level l).isLE then { j with notes := j.notes.push n } else j

/-- The lines of a journal, each a level and a text, up to the first note that has no text. -/
def lines (j : Journal) : List String :=
  go j.notes.toList
where
  go : List Note → List String
    | [] => []
    | n :: rest =>
      match n.text () with
      | .ok text => s!"{n.level.name} {text}" :: go rest
      | .error _ => []

/-- Why a note from position `start` on has no text, if there is such a note. -/
def fault? (j : Journal) (start : Nat) : Option Fault :=
  (j.notes.toList.drop start).findSome? fun n =>
    match n.text () with
    | .ok _ => none
    | .error e => some e

end Journal

end CacheSim
