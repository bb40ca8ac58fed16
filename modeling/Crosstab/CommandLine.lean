import Crosstab.Json.Printer
import Crosstab.Json.Reader
import Crosstab.LogLine
import Crosstab.Session.Demo
import Crosstab.Session.Reading
import Crosstab.Session.Writing

/-!
# The command line

Options may stand in any order; an option with an operand takes it from the next argument or from
behind an equals sign. A run loads records, registers calculated fields in the order of their
definitions, sets a layout and prints the report of a session. Files come in as their texts.
-/

namespace Crosstab.CommandLine

/-! ### Options -/

inductive Source where
  | file (path : String)
  | demo
  deriving DecidableEq

structure Options where
  source : Option Source
  /-- The file with the layout. -/
  layout : Option String
  /-- Calculated fields, each as its name, an equals sign and its formula. -/
  definitions : List String
  /-- The most detailed level that is logged, if any. -/
  logLevel : Option LogLevel
  logFile : Option String
  /-- Whether the report is printed on several lines. -/
  pretty : Bool
  deriving DecidableEq

def Options.initial : Options := ⟨none, none, [], some .warn, none, false⟩

inductive UsageError where
  | unknownOption (text : String)
  | missingOperand (option : String)
  | twoSources
  | unknownLevel (text : String)
  deriving DecidableEq

def UsageError.message : UsageError → String
  | unknownOption text => "unexpected argument '" ++ text ++ "'"
  | missingOperand option => "a value is required for '" ++ option ++ "'"
  | twoSources => "'--records' cannot be used with '--demo'"
  | unknownLevel text => "'" ++ text ++ "' is not a log level"

def splitAtEquals? (s : String) : Option (String × String) :=
  let cs := s.toList
  match cs.dropWhile (· != '=') with
  | [] => none
  | _ :: rest => some (String.ofList (cs.takeWhile (· != '=')), String.ofList rest)

namespace Options
variable (o : Options)

def withSource (source : Source) : Except UsageError Options :=
  match o.source with
  | some _ => .error .twoSources
  | none => .ok { o with source := source }

def withLogLevel (text : String) : Except UsageError Options :=
  if Decimal.lowerAscii text = "off" then .ok { o with logLevel := none }
  else
    match LogLevel.ofName? text with
    | some level => .ok { o with logLevel := some level }
    | none => .error (.unknownLevel text)

def withFlag? : String → Option (Except UsageError Options)
  | "--demo" => some (o.withSource .demo)
  | "--pretty" => some (.ok { o with pretty := true })
  | _ => none

def withOperand? (option operand : String) : Option (Except UsageError Options) :=
  match option with
  | "--records" | "-r" => some (o.withSource (.file operand))
  | "--request" | "-q" => some (.ok { o with layout := operand })
  | "--calc" => some (.ok { o with definitions := o.definitions ++ [operand] })
  | "--log-level" => some (o.withLogLevel operand)
  | "--log-file" => some (.ok { o with logFile := operand })
  | _ => none

def read (o : Options) : List String → Except UsageError Options
  | [] => .ok o
  | argument :: rest =>
    match o.withFlag? argument with
    | some step => do read (← step) rest
    | none =>
      match (splitAtEquals? argument).bind fun (option, operand) => o.withOperand? option operand with
      | some step => do read (← step) rest
      | none =>
        match rest with
        | operand :: rest =>
          match o.withOperand? argument operand with
          | some step => do read (← step) rest
          | none => .error (.unknownOption argument)
        | [] =>
          if (o.withOperand? argument "").isSome then .error (.missingOperand argument)
          else .error (.unknownOption argument)

end Options

/-! ### Answers -/

inductive Failure where
  | usage (cause : UsageError)
  | noRecords
  | notADefinition (text : String)
  | unreadable (path cause : String)
  | invalidDocument (path : String)
  | command (cause : Session.CommandError)

def Failure.message : Failure → String
  | usage cause => cause.message
  | noRecords => "no records: pass --records FILE or --demo"
  | notADefinition text => "--calc expects NAME=FORMULA, got '" ++ text ++ "'"
  | unreadable path cause => "failed to read " ++ path ++ ": " ++ cause
  | invalidDocument path => "invalid JSON in " ++ path
  | command cause => cause.message

def readOptions (arguments : List String) : Except Failure Options :=
  match Options.initial.read arguments with
  | .ok o => .ok o
  | .error e => .error (.usage e)

def ofCommand {α : Type} : Except Session.CommandError α → Except Failure α
  | .ok a => .ok a
  | .error e => .error (.command e)

def readDocument {α : Type} (read? : Json → Option α) (path text : String) : Except Failure α :=
  match (Json.read? text).bind read? with
  | some a => .ok a
  | none => .error (.invalidDocument path)

def readRecords : String → String → Except Failure (List Record) :=
  readDocument (Json.itemsVia? Record.ofJson?)

def readLayout : String → String → Except Failure Session.Layout :=
  readDocument Session.Layout.ofJson?

def sessionOf (records : List Record) (definitions : List String) : Except Failure Session :=
  definitions.zipIdx.foldlM (fun s (text, i) =>
    match splitAtEquals? text with
    | some (name, formula) =>
      (ofCommand (s.addCalculated ("calc_" ++ Nat.repr (i + 1)) name formula)).map (·.2)
    | none => .error (.notADefinition text)) (Session.new.load records)

def reportOf (s : Session) (layout : Option Session.Layout) : Except Failure Session.Report := do
  let s ← match layout with
    | some l => ofCommand (s.configure l)
    | none => .ok s
  ofCommand s.report

/-- A number in a document; what is no real number is null. -/
def documentNumber (x : Float) : Json :=
  if x.isFinite then .number (Decimal.document.text x) else .null

def print (o : Options) (r : Session.Report) : String :=
  let j := r.toJson documentNumber
  if o.pretty then j.pretty else j.render

end Crosstab.CommandLine
