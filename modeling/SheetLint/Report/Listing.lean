import SheetLint.Path
import SheetLint.Report
import SheetLint.Terminal

/-!
Reports as listings for people: one line for each violation and each fault, and a line with the
counts at the end.
-/

namespace SheetLint

structure Listing where
  colors : Bool
  base : Option String
deriving DecidableEq, Repr

namespace Listing

/-- A listing without colors that shows paths as they are. -/
def plain : Listing := ⟨false, none⟩

def colorOf : Severity → Terminal.Color
  | .error => .red
  | .warning => .yellow

def labelOf : Severity → String × String
  | .error => ("✖", "⟦error⟧")
  | .warning => ("▲", "⟦warn⟧")

def line (l : Listing) (color : Terminal.Color) (label : String × String) (source : String)
    (pos : Position) (message : String) : String :=
  Terminal.paint l.colors (some color) label.1 ++ " "
    ++ Terminal.paint l.colors (some color) label.2 ++ " "
    ++ Terminal.paint l.colors none (Path.display source l.base) ++ ":" ++ toString pos.line ++ ":"
    ++ toString pos.column ++ " — " ++ message ++ "\n"

def violationLine (l : Listing) (source : String) (v : Violation) : String :=
  l.line (colorOf v.severity) (labelOf v.severity) source v.pos v.message

def faultLine (l : Listing) (source : String) (fault : InputFault) : String :=
  match fault with
  | .unparsable message pos => l.line .red ("✖", "⟦fatal⟧") source pos message
  | .unreadable _ => l.line .red ("✖", "⟦fatal⟧") source .start fault.message

def resultLines (l : Listing) (r : InputResult) : List String :=
  match r.fault with
  | some fault => [l.faultLine r.source fault]
  | none => r.violations.map (l.violationLine r.source)

def summaryLine (l : Listing) (s : Summary) : String :=
  Terminal.paint l.colors none
    ("— Summary — errors=" ++ toString s.errors ++ " warnings=" ++ toString s.warnings ++ " fatal="
      ++ toString s.fatal ++ " inputs=" ++ toString s.inputs) ++ "\n"

def text (l : Listing) (r : Report) : String :=
  String.join (r.results.flatMap l.resultLines ++ [l.summaryLine r.summary])

end Listing

end SheetLint
