import SheetLint.Rule

/-!
The rule against empty comments. Comments that run to the end of their line are left alone.
-/

namespace SheetLint.Rule

def emptyComment? : Node → Option Finding
  | .comment c =>
    if !c.inline && c.text.toList.all Text.isBlank then some ⟨c.start, "Unexpected empty comment"⟩
    else none
  | _ => none

def commentNoEmpty : Rule :=
  ofFindings "comment-no-empty" "Disallow empty comments" fun sheet =>
    sheet.walk.filterMap emptyComment?

end SheetLint.Rule
