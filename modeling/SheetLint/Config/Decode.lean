import SheetLint.Json.Printer
import SheetLint.Severity
import SheetLint.Text.Quoted

namespace SheetLint

inductive DecodeError where
  | type (found : Json) (expected : String)
  /-- An object with no member or more than one. -/
  | manyMembers
  | length (found : Nat) (expected : String)
  | severity (name : String)
deriving Repr

namespace Json

def describe : Json → String
  | .null => "null"
  | .bool b => "boolean `" ++ (if b then "true" else "false") ++ "`"
  | .number (.integer n) => "integer `" ++ String.ofList (Number.integer n).text ++ "`"
  | .number (.float x) => "floating point `" ++ String.ofList x.text ++ "`"
  | .string s => "string " ++ Text.quoted s
  | .array _ => "sequence"
  | .object _ => "map"

end Json

def DecodeError.message : DecodeError → String
  | type found expected => "invalid type: " ++ found.describe ++ ", expected " ++ expected
  | manyMembers => "invalid value: map, expected map with a single key"
  | length found expected => "invalid length " ++ toString found ++ ", expected " ++ expected
  | severity name =>
    "unknown variant `" ++ name ++ "`, expected "
      ++ " or ".intercalate (Severity.all.map fun s => "`" ++ s.name ++ "`")

namespace Decode

def string : Json → Except DecodeError String
  | .string s => .ok s
  | j => .error (.type j "a string")

def severityName (name : String) : Except DecodeError Severity :=
  match Severity.ofName? name with
  | some s => .ok s
  | none => .error (.severity name)

/-- A severity: its name, or an object whose one member has that name and holds null. -/
def severity : Json → Except DecodeError Severity
  | .string s => severityName s
  | .object [(name, value)] =>
    match severityName name, value with
    | .error e, _ => .error e
    | .ok s, .null => .ok s
    | .ok _, j => .error (.type j "unit")
  | .object _ => .error .manyMembers
  | j => .error (.type j "string or map")

def optional {α : Type} (decode : Json → Except DecodeError α) : Json → Except DecodeError (Option α)
  | .null => .ok none
  | j => (decode j).map some

end Decode

end SheetLint
