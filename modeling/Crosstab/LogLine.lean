import Crosstab.Session.Basic

/-!
# The log

A log line has a running number, a level in five characters, a category and a message. The log of a
report tells of the records left out, of the measures that could not be computed, and how large the
table is, down to the level that is asked for.
-/

namespace Crosstab

inductive LogLevel where
  | error
  | warn
  | info
  | debug
  | trace
  deriving DecidableEq

def LogLevel.name : LogLevel → String
  | error => "ERROR"
  | warn => "WARN"
  | info => "INFO"
  | debug => "DEBUG"
  | trace => "TRACE"

def LogLevel.rank : LogLevel → Nat
  | error => 0
  | warn => 1
  | info => 2
  | debug => 3
  | trace => 4

def LogLevel.ofName? (s : String) : Option LogLevel :=
  match String.ofList (s.toList.map Char.toUpper) with
  | "ERROR" => some error
  | "WARN" => some warn
  | "INFO" => some info
  | "DEBUG" => some debug
  | "TRACE" => some trace
  | _ => none

def logLine (number : Nat) (level : LogLevel) (category message : String) : String :=
  let padding := String.ofList (List.replicate (5 - level.name.length) ' ')
  "[" ++ Nat.repr number ++ "] " ++ level.name ++ padding ++ " " ++ category ++ " " ++ message

namespace Session.Report
variable (r : Report)

def remarks : List (LogLevel × String) :=
  r.table.dataErrors.map (fun e => (.warn, "skipping record: " ++ e.message)) ++
    (if r.table.faults.isEmpty then []
      else [(.warn, Nat.repr r.table.faults.length ++ " measure cell(s) could not be computed")]) ++
    [(.info, Nat.repr r.table.recordCount ++ " records in " ++ Nat.repr r.table.rows.length ++
      " rows")]

def log : (most : Option LogLevel) → List String
  | none => []
  | some most =>
    (r.remarks.filter fun (level, _) => level.rank ≤ most.rank).zipIdx.map
      fun ((level, message), i) => logLine (i + 1) level "PIVOT" message

end Session.Report

end Crosstab
