import SheetLint.Rule

/-!
The rule against setting a property twice in one block. Variables are not properties and may be
set again.
-/

namespace SheetLint.Rule

def property? : Node → Option (List Char)
  | .declaration d => if d.isVariable then none else some (Text.lowerAscii d.prop.toList)
  | _ => none

def duplicate (d : Declaration) : Finding :=
  ⟨d.start, "Unexpected duplicate \"" ++ d.prop ++ "\""⟩

/-- The findings among the nodes that follow those which set the properties in `seen`. -/
def duplicatesAfter (seen : List (List Char)) : List Node → List Finding
  | [] => []
  | .declaration d :: nodes =>
    match property? (.declaration d) with
    | none => duplicatesAfter seen nodes
    | some p =>
      if seen.contains p then duplicate d :: duplicatesAfter seen nodes
      else duplicatesAfter (p :: seen) nodes
  | _ :: nodes => duplicatesAfter seen nodes

def noDuplicateProperties : Rule :=
  ofFindings "declaration-block-no-duplicate-properties"
    "Disallow duplicate properties within declaration blocks" fun sheet =>
      sheet.containers.flatMap (duplicatesAfter [])

end SheetLint.Rule
