import SheetLint.Dialect
import SheetLint.Brace.Outline
import SheetLint.Indented.Nesting

namespace SheetLint.Dialect

/-- The lexical flavor of a dialect that writes blocks with braces. -/
def flavor? : Dialect → Option Brace.Flavor
  | css => some .css
  | scss => some .scss
  | less => some .less
  | sugarss => none

def parse (d : Dialect) (text : String) : Except ParseError Sheet :=
  match d.flavor? with
  | some flavor => Brace.parse flavor text.toList
  | none => Indented.parse text.toList

end SheetLint.Dialect
