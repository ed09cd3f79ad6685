import CacheSim.CommandLine.Options
import CacheSim.Config.Text
import CacheSim.Json.Printer
import CacheSim.Simulation.Run
import CacheSim.Trace.Text

/-!
# What the program answers

The program reads a configuration and a trace, runs their system, and answers
with a report or with the reason why there is none.  `Outcome.ofWords` is all of
this on the texts of the files; only reading and writing files is left to do.
-/

namespace CacheSim

/-- The texts of a completed run. -/
structure RunReport where
  /-- What is printed. -/
  output : String
  /-- The summary. -/
  json : String
  /-- The figures. -/
  csv : String
  deriving DecidableEq

/-- Why there is no report. -/
inductive RunError where
  /-- A file that cannot be read. -/
  | unreadable (file : String)
  | config (file : String) (error : ReadError ConfigError)
  | trace (file : String) (error : ReadError TraceError)
  | system (error : SimulationError)
  | stall (stall : Stall)

/-- The wording of an error. -/
def RunError.message : RunError → String
  | unreadable file => s!"failed to read {file}"
  | config file .malformed | trace file .malformed => s!"{file} is malformed"
  | config _ (.invalid e) => e.message
  | trace file (.invalid e) => s!"invalid trace {file}: {e.message}"
  | system e => e.message
  | stall s => s.message

/-- How the program ends. -/
inductive Outcome where
  | completed (report : RunReport)
  /-- The words of the command line make no sense. -/
  | misused
  | failed (error : RunError)
  | broken (fault : Fault)

namespace Outcome

/-- The exit code that tells the outcome. -/
def code : Outcome → UInt8
  | completed _ => 0
  | failed _ => 1
  | misused => 2
  | broken _ => 101

end Outcome

/-- The report on a summary. -/
def Summary.report (s : Summary) : Except Fault RunReport := do
  let csv ← s.cache.rows
  let block ← s.cache.diagnosticBlock
  let listing ← s.cache.listing
  return { csv, output := block ++ "\n" ++ listing, json := Json.pretty s.toDocument }

namespace Options

/-- The configuration that the options name, with their seed. -/
def readConfig (o : Options) (read : String → Option String) : Except RunError Config := do
  let config ← match o.config with
    | none => .ok {}
    | some file =>
      match read file with
      | none => .error (.unreadable file)
      | some text => (Config.ofText text).mapError (.config file)
  return { config with seed := o.seed.getD config.seed }

/-- The trace that the options name. -/
def readTrace (o : Options) (read : String → Option String) : Except RunError Trace :=
  let file := o.trace.getD ""
  match read file with
  | none => .error (.unreadable file)
  | some text => (Trace.ofText (.ofPath file) text).mapError (.trace file)

/-- Runs what the options ask for, given the texts of files. -/
def execute (o : Options) (read : String → Option String) :
    Sim (Except RunError RunReport) := do
  let inputs : Except RunError (Config × Trace) := do
    return (← o.readConfig read, ← o.readTrace read)
  match inputs with
  | .error e => return .error e
  | .ok (config, trace) =>
    match ← Simulation.build config trace with
    | .error e => return .error (.system e)
    | .ok s =>
      let limit := (o.maxCycles.map UInt64.toNat).getD Simulation.defaultLimit
      match ← s.run limit with
      | (.error e, _) => return .error (.stall e)
      | (.ok summary, _) =>
        let report ← summary.report
        return .ok report

end Options

/-- The outcome of an execution. -/
def Outcome.ofResult : Except Fault (Except RunError RunReport) → Outcome
  | .ok (.ok report) => completed report
  | .ok (.error e) => failed e
  | .error e => broken e

/-- The outcome for the words of a command line, given the texts of files. -/
def Outcome.ofWords (words : List String) (read : String → Option String) : Outcome :=
  match Options.ofWords? words with
  | none => misused
  | some o => ofResult (o.execute read).result

end CacheSim
