import SheetLint.Report.Json
import SheetLint.Report.Listing

namespace SheetLint

inductive FormatterError where
  | custom (message : String)
deriving DecidableEq, Repr

def FormatterError.message : FormatterError → String
  | custom message => "formatter failed: " ++ message

abbrev Formatter := Report → Except FormatterError String

namespace Formatter

def json : Formatter :=
  fun r => .ok (String.ofList r.toJson.pretty)

def listing (l : Listing) : Formatter :=
  fun r => .ok (l.text r)

def ofName (l : Listing) (name : String) : Except FormatterError Formatter :=
  if name = "json" then .ok json
  else if name = "string" then .ok (listing l)
  else .error (.custom ("unknown formatter `" ++ name ++ "` (expected json|string)"))

end Formatter

end SheetLint
