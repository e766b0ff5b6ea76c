import SheetLint.Input
import SheetLint.Parse
import SheetLint.Plan

/-!
Checking one input: parsing it and running every rule of a plan on its tree. A rule that does not
finish yields one violation of its own and nothing else, whatever it has found before.
-/

namespace SheetLint

namespace PlannedRule

def messageOf (p : PlannedRule) (text : String) : String :=
  p.message.getD text ++ " (" ++ p.rule.name ++ ")"

def violationOf (p : PlannedRule) (f : Finding) : Violation :=
  ⟨p.rule.name, f.pos, p.messageOf f.text, p.severity⟩

def faultViolation (p : PlannedRule) (detail : String) : Violation :=
  ⟨p.rule.name, .start, "Internal error in rule \"" ++ p.rule.name ++ "\": " ++ detail, .error⟩

def violations (p : PlannedRule) (dialect : Dialect) (sheet : Sheet) : List Violation :=
  let outcome := p.rule.check ⟨p.primary, dialect⟩ sheet
  match outcome.ending.fault? with
  | none => outcome.findings.map p.violationOf
  | some detail => [p.faultViolation detail]

end PlannedRule

namespace Check

def inOrder (v w : Violation) : Bool :=
  v.pos.le w.pos

/-- The violations of a plan on a sheet, in the order of their places; at one place, in the order
of the plan. -/
def violations (plan : List PlannedRule) (dialect : Dialect) (sheet : Sheet) : List Violation :=
  (plan.flatMap (·.violations dialect sheet)).mergeSort inOrder

def checkText (plan : List PlannedRule) (source : String) (dialect : Dialect) (text : String) :
    InputResult :=
  match dialect.parse text with
  | .error e => .failed source dialect (.unparsable e.message e.pos)
  | .ok sheet =>
    .checked source dialect (violations plan dialect sheet) ⟨dialect, sheet.nodeCount⟩

def checkInput (plan : List PlannedRule) (input : Input) : InputResult :=
  match input.text with
  | .error fault => .failed input.source input.dialect fault
  | .ok text => checkText plan input.source input.dialect text

end Check

end SheetLint
