import SheetLint.Dialect
import SheetLint.Position
import SheetLint.Severity

/-!
Reports. Each input has one result: the violations found in it, or the fault that kept it from being
checked. A report lists the results and counts what they hold.
-/

namespace SheetLint

structure Violation where
  rule : String
  pos : Position
  message : String
  severity : Severity
deriving DecidableEq, Repr

inductive InputFault where
  | unreadable (message : String)
  | unparsable (message : String) (pos : Position)
deriving DecidableEq, Repr

def InputFault.message : InputFault → String
  | unreadable message => "failed to read input: " ++ message
  | unparsable message pos =>
    "failed to parse input: " ++ message ++ " (" ++ toString pos.line ++ ":" ++ toString pos.column
      ++ ")"

/-- The tree that a result was made from: its dialect and the number of its nodes. -/
structure Artifact where
  dialect : Dialect
  nodes : Nat
deriving DecidableEq, Repr

structure InputResult where
  source : String
  dialect : Dialect
  violations : List Violation
  fault : Option InputFault
  artifact : Option Artifact
deriving DecidableEq, Repr

namespace InputResult

def checked (source : String) (dialect : Dialect) (violations : List Violation)
    (artifact : Artifact) : InputResult :=
  ⟨source, dialect, violations, none, some artifact⟩

def failed (source : String) (dialect : Dialect) (fault : InputFault) : InputResult :=
  ⟨source, dialect, [], some fault, none⟩

def count (r : InputResult) (s : Severity) : Nat :=
  r.violations.countP (·.severity = s)

def isErrored (r : InputResult) : Bool :=
  r.fault.isSome || r.violations.any (·.severity = .error)

end InputResult

structure Summary where
  errors : Nat
  warnings : Nat
  fatal : Nat
  inputs : Nat
deriving DecidableEq, Repr

structure Report where
  results : List InputResult
  errored : Bool
  summary : Summary
deriving DecidableEq, Repr

namespace Report

def count (results : List InputResult) (s : Severity) : Nat :=
  results.foldl (fun n r => n + r.count s) 0

def summarize (results : List InputResult) : Summary where
  errors := count results .error
  warnings := count results .warning
  fatal := results.countP (·.fault.isSome)
  inputs := results.length

def ofResults (results : List InputResult) : Report :=
  ⟨results, results.any InputResult.isErrored, summarize results⟩

def get? (r : Report) (source : String) : Option InputResult :=
  r.results.find? (·.source = source)

end Report

end SheetLint
