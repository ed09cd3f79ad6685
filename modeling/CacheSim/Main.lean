import CacheSim.CommandLine.Outcome

/-!
# The program

Reads the files that the options name, and prints and writes what the run
answers.  The notes of the run and the reason of a failure go to the standard
error stream.
-/

namespace CacheSim.Program

/-- How the program is called. -/
def usage : String :=
  "usage: --trace FILE [--config FILE] [--seed N] [--max-cycles N] "
    ++ "[--stats-json FILE] [--stats-csv FILE] [-v]..."

/-- The text of a file that can be read. -/
def readFile? (path : String) : IO (Option String) := do
  try
    return some (← IO.FS.readFile path)
  catch _ =>
    return none

/-- The files that can be read, with their texts. -/
def readFiles (paths : List String) : IO (List (String × String)) :=
  paths.filterMapM fun path => do
    return (← readFile? path).map fun text => (path, text)

/-- Writes a text to a file, if one is named. -/
def writeFile (path : Option String) (text : String) : IO Unit := do
  if let some path := path then IO.FS.writeFile path text

/-- Shows the outcome of what the options ask for. -/
def present (o : Options) : Outcome → IO Unit
  | .completed report => do
    writeFile o.statsJson report.json
    writeFile o.statsCsv report.csv
    IO.print report.output
  | .misused => IO.eprintln usage
  | .failed e => IO.eprintln e.message
  | .broken fault => IO.eprintln fault.message

/-- Runs what the options ask for. -/
def run (o : Options) : IO Outcome := do
  let files ← readFiles (o.config.toList ++ o.trace.toList)
  let (result, journal) := (o.execute fun path => List.lookup path files).run { level := o.level }
  for line in journal.lines do
    IO.eprintln line
  let outcome := Outcome.ofResult result
  present o outcome
  return outcome

end CacheSim.Program

open CacheSim in
/-- The program. -/
def main (words : List String) : IO UInt32 := do
  match Options.ofWords? words with
  | none =>
    IO.eprintln Program.usage
    return Outcome.misused.code.toUInt32
  | some o => return (← Program.run o).code.toUInt32
