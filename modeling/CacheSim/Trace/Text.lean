import CacheSim.Document.Text
import CacheSim.Trace.Format

/-!
# Traces as texts

A trace file is in JSON if its name ends in the extension `json`, in any case
of the letters, and in YAML otherwise.
-/

namespace CacheSim

/-- Reads a trace and checks it. -/
def Trace.ofText (format : Format) (text : String) : Except (ReadError TraceError) Trace :=
  Document.readText format Trace.shape Trace.ofDocument? Trace.validate text

namespace Path

/-- The last component of a path. -/
def lastComponent (path : List Char) : List Char :=
  (path.reverse.takeWhile (· != '/')).reverse

/-- What follows the last point of the last component of a path, unless that
point comes first or there is none. -/
def extension? (path : List Char) : Option (List Char) :=
  let name := lastComponent path
  let ending := (name.reverse.takeWhile (· != '.')).reverse
  if ending.length + 1 < name.length then some ending else none

end Path

/-- The format of the file at a path. -/
def Format.ofPath (path : String) : Format :=
  if (Path.extension? path.toList).map (·.map Char.toLower) = some "json".toList then .json
  else .yaml

end CacheSim
