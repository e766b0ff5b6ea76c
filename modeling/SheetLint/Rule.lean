import SheetLint.Declaration
import SheetLint.Dialect
import SheetLint.Json.Printer

/-!
Rules: named checks of a parsed style sheet. A check makes findings and then ends; one that fails
or crashes is reported by the linter in its own way.
-/

namespace SheetLint

structure Finding where
  pos : Position
  text : String
deriving DecidableEq, Repr

namespace Rule

inductive Ending where
  | finished
  | failed (reason : String)
  | crashed (message : Option String)
deriving DecidableEq, Repr

structure Outcome where
  findings : List Finding
  ending : Ending
deriving DecidableEq, Repr

structure Context where
  primary : Json
  dialect : Dialect
deriving Repr

def Ending.fault? : Ending → Option String
  | finished => none
  | failed reason => some reason
  | crashed message => some (message.getD "rule panicked")

end Rule

structure Rule where
  name : String
  description : String
  /-- Accepts a primary option, or says why it does not. -/
  accepts : Json → Except String Unit
  check : Rule.Context → Sheet → Rule.Outcome

namespace Rule

def acceptsTrue : Json → Except String Unit
  | .bool true => .ok ()
  | j => .error ("expected `true`, got `" ++ j.compress ++ "`")

/-- A rule without options whose findings depend on the sheet alone and which always finishes. -/
def ofFindings (name description : String) (findings : Sheet → List Finding) : Rule where
  name
  description
  accepts := acceptsTrue
  check _ sheet := ⟨findings sheet, .finished⟩

end Rule

end SheetLint
