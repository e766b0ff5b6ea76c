import SheetLint.Rule.BlockNoEmpty
import SheetLint.Rule.ColorNoInvalidHex
import SheetLint.Rule.CommentNoEmpty
import SheetLint.Rule.LengthZeroNoUnit
import SheetLint.Rule.NoDuplicateProperties

/-!
The rules that are available by name. A rule that is registered under a known name takes the place
of the earlier one and moves to the end.
-/

namespace SheetLint

structure Registry where
  rules : List Rule

namespace Registry

def empty : Registry := ⟨[]⟩

/-- Adds a rule and drops an earlier one with its name. -/
def register (r : Registry) (rule : Rule) : Registry :=
  ⟨r.rules.filter (·.name != rule.name) ++ [rule]⟩

def get? (r : Registry) (name : String) : Option Rule :=
  r.rules.find? (·.name = name)

def size (r : Registry) : Nat :=
  r.rules.length

def descriptions (r : Registry) : List (String × String) :=
  r.rules.map fun rule => (rule.name, rule.description)

def builtIn : Registry :=
  [Rule.blockNoEmpty, Rule.colorNoInvalidHex, Rule.commentNoEmpty, Rule.noDuplicateProperties,
    Rule.lengthZeroNoUnit].foldl register empty

end Registry

end SheetLint
