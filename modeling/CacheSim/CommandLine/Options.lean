import CacheSim.Text.Digits
import CacheSim.Journal

/-!
# Options

What a user writes behind the name of the program.  A long option takes its
value behind an equals sign or as the next word, a short one also without a
separator.  Every option but the verbosity may be given once.
-/

namespace CacheSim

/-- What a user asks for. -/
structure Options where
  /-- The file of the configuration. -/
  config : Option String := none
  /-- The file of the trace. -/
  trace : Option String := none
  /-- A seed in place of that of the configuration. -/
  seed : Option UInt64 := none
  /-- The cycles after which a run gives up. -/
  maxCycles : Option UInt64 := none
  /-- The file for the summary. -/
  statsJson : Option String := none
  /-- The file for the figures. -/
  statsCsv : Option String := none
  verbosity : Nat := 0
  deriving DecidableEq, Inhabited

namespace Options

/-- A number of 64 bits in decimal digits, which may follow a plus sign. -/
def number? (s : String) : Option UInt64 := do
  let digits := match s.toList with
    | '+' :: rest => rest
    | cs => cs
  let n ← Digits.value? digits
  if n < UInt64.size then some (UInt64.ofNat n) else none

/-- Sets a value that was not set before. -/
def once {α : Type} (old : Option α) (new : α) : Option (Option α) :=
  match old with
  | none => some (some new)
  | some _ => none

/-- Sets the option of a long name. -/
def set? (o : Options) (name value : String) : Option Options :=
  match name with
  | "config" => do return { o with config := ← once o.config value }
  | "trace" => do return { o with trace := ← once o.trace value }
  | "seed" => do return { o with seed := ← once o.seed (← number? value) }
  | "max-cycles" => do return { o with maxCycles := ← once o.maxCycles (← number? value) }
  | "stats-json" => do return { o with statsJson := ← once o.statsJson value }
  | "stats-csv" => do return { o with statsCsv := ← once o.statsCsv value }
  | _ => none

/-- The long name of an option that is also given by a letter. -/
def longName? : Char → Option String
  | 'c' => some "config"
  | 't' => some "trace"
  | _ => none

/-- The value of a short option, if it stands in the same word. -/
def attached? : List Char → Option String
  | [] => none
  | '=' :: value => some (String.ofList value)
  | value => some (String.ofList value)

/-- What a word of short options asks for: to be more verbose by some steps, and
then perhaps an option with its value, as far as it stands in the word. -/
def ofLetters? : List Char → Option (Nat × Option (String × Option String))
  | [] => some (0, none)
  | 'v' :: rest => do
    let (steps, option) ← ofLetters? rest
    return (steps + 1, option)
  | c :: rest => do
    let name ← longName? c
    return (0, some (name, attached? rest))

/-- Splits a word at its first equals sign. -/
def splitAtEquals (cs : List Char) : String × Option String :=
  (String.ofList (cs.takeWhile (· != '=')),
    match cs.dropWhile (· != '=') with
    | [] => none
    | _ :: value => some (String.ofList value))

/-- What a word asks for; nothing, if it is no option. -/
def ofWord? (word : String) : Option (Nat × Option (String × Option String)) :=
  match word.toList with
  | '-' :: '-' :: long => some (0, some (splitAtEquals long))
  | '-' :: c :: rest => ofLetters? (c :: rest)
  | _ => none

/-- Reads words on top of the options given so far. -/
def readWords (o : Options) : List String → Option Options
  | [] => some o
  | word :: rest =>
    match ofWord? word with
    | none => none
    | some (steps, none) => readWords { o with verbosity := o.verbosity + steps } rest
    | some (steps, some (name, some value)) => do
      let o ← o.set? name value
      readWords { o with verbosity := o.verbosity + steps } rest
    | some (steps, some (name, none)) =>
      match rest with
      | [] => none
      | value :: rest => do
        let o ← o.set? name value
        readWords { o with verbosity := o.verbosity + steps } rest

/-- The options that words stand for.  A trace must be named. -/
def ofWords? (words : List String) : Option Options := do
  let o ← readWords {} words
  if o.trace.isSome then some o else none

/-- The greatest level of the notes to show. -/
def level (o : Options) : Option Level :=
  match o.verbosity with
  | 0 => none
  | 1 => some .info
  | 2 => some .debug
  | _ => some .trace

end Options

end CacheSim
