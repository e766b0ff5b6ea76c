namespace SheetLint.Brace

/-- How a dialect with braces differs from plain style sheets. -/
structure Flavor where
  /-- Whether `//` starts a comment that runs to the end of the line. -/
  lineComments : Bool
  /-- The character that starts an interpolation when an opening brace follows it. -/
  interpolation : Option Char
  /-- Whether `@name: value` declares a variable and `.name` calls a mixin. -/
  mixins : Bool
deriving DecidableEq, Repr

namespace Flavor

def css : Flavor := ⟨false, none, false⟩

def scss : Flavor := ⟨true, some '#', false⟩

def less : Flavor := ⟨true, some '@', true⟩

end Flavor

end SheetLint.Brace
