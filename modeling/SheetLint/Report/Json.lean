import SheetLint.Report
import SheetLint.Json.Printer

/-!
Reports as JSON. A result names its fault only if it has one.
-/

namespace SheetLint

def Violation.toJson (v : Violation) : Json :=
  .object [("rule", .string v.rule), ("line", .ofNat v.pos.line), ("column", .ofNat v.pos.column),
    ("message", .string v.message), ("severity", .string v.severity.name)]

def InputFault.toJson : InputFault → Json
  | unreadable message => .object [("kind", .string "io"), ("message", .string message)]
  | unparsable message pos =>
    .object [("kind", .string "parse"), ("line", .ofNat pos.line), ("column", .ofNat pos.column),
      ("message", .string message)]

def InputResult.toJson (r : InputResult) : Json :=
  .object ([("source", .string r.source), ("dialect", .string r.dialect.name),
      ("violations", .array (r.violations.map Violation.toJson))]
    ++ (r.fault.map fun f => ("error", f.toJson)).toList)

def Summary.toJson (s : Summary) : Json :=
  .object [("errors", .ofNat s.errors), ("warnings", .ofNat s.warnings), ("fatal", .ofNat s.fatal),
    ("inputs", .ofNat s.inputs)]

def Report.toJson (r : Report) : Json :=
  .object [("results", .array (r.results.map InputResult.toJson)), ("errored", .bool r.errored),
    ("summary", r.summary.toJson)]

end SheetLint
