namespace SheetLint

inductive Severity where
  | warning
  | error
deriving DecidableEq, Repr

namespace Severity

def name : Severity → String
  | warning => "warning"
  | error => "error"

def all : List Severity := [warning, error]

def ofName? (text : String) : Option Severity :=
  all.find? (·.name = text)

end Severity

end SheetLint
