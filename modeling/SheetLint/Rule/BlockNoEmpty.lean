import SheetLint.Rule

/-!
The rule against empty blocks. A block that holds nothing but comments is not empty.
-/

namespace SheetLint.Rule

def emptyBlock? : Node → Option Finding
  | .block _ _ opener [] => some ⟨opener, "Unexpected empty block"⟩
  | _ => none

def blockNoEmpty : Rule :=
  ofFindings "block-no-empty" "Disallow empty blocks" fun sheet => sheet.walk.filterMap emptyBlock?

end SheetLint.Rule
