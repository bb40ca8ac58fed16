import Crosstab.CommandLine

/-!
# The program

Prints the pivot table of a file of records, or of the demo data, as JSON. Remarks go to the error
stream and to the log file.
-/

namespace Crosstab.CommandLine

def readText (path : String) : ExceptT Failure IO String := do
  match ← (IO.FS.readFile path).toBaseIO with
  | .ok text => return text
  | .error cause => throw (.unreadable path (toString cause))

def recordsOf : Option Source → ExceptT Failure IO (List Record)
  | some (.file path) => do
    let text ← readText path
    readRecords path text
  | some .demo => return Session.demoRecords
  | none => throw .noRecords

def layoutOf : Option String → ExceptT Failure IO (Option Session.Layout)
  | some path => do
    let text ← readText path
    let layout ← readLayout path text
    return some layout
  | none => return none

def writeLog (o : Options) (lines : List String) : IO Unit := do
  for line in lines do IO.eprintln line
  match o.logFile with
  | some path => IO.FS.writeFile path (String.join (lines.map (· ++ "\n")))
  | none => return ()

def run (arguments : List String) : ExceptT Failure IO Unit := do
  let o ← readOptions arguments
  let records ← recordsOf o.source
  let s ← sessionOf records o.definitions
  let layout ← layoutOf o.layout
  let r ← reportOf s layout
  writeLog o (r.log o.logLevel)
  IO.println (print o r)

end Crosstab.CommandLine

def main (arguments : List String) : IO UInt32 := do
  match ← (Crosstab.CommandLine.run arguments).run with
  | .ok _ => return 0
  | .error failure =>
    IO.eprintln ("error: " ++ failure.message)
    return 1
