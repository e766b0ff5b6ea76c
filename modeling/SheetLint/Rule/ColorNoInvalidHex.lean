import SheetLint.Rule
import SheetLint.Text.Letter
import SheetLint.Value.Word

/-!
The rule against malformed hexadecimal colors such as `#ff` and `#12345z`. Every `#` with a letter
or digit after it counts as a color, unless a letter, a number or `&` stands right before it: `a#b`
is an identifier.
-/

namespace SheetLint.Rule

def isHexDigit (c : Char) : Bool :=
  c.isDigit || ('a' ≤ c && c ≤ 'f') || ('A' ≤ c && c ≤ 'F')

def isHexColor (digits : List Char) : Bool :=
  [3, 4, 6, 8].contains digits.length && digits.all isHexDigit

def isGlue (before : Option Char) : Bool :=
  before.any fun c => Text.isAlphanumeric c || c == '&'

/-- The malformed colors in the rest of a word, each without its `#` and with its offset, when the
rest begins at an offset and follows the character `before`. -/
def malformedFrom (offset : Nat) (before : Option Char) : List Char → List (Nat × List Char)
  | [] => []
  | c :: cs =>
    let digits := cs.takeWhile Char.isAlphanum
    let more := malformedFrom (offset + c.utf8Size) (some c) cs
    if c = '#' ∧ !digits.isEmpty ∧ !isGlue before ∧ !isHexColor digits then (offset, digits) :: more
    else more

def malformedColors (d : Declaration) : List Finding :=
  (Value.words d.value ["url"]).flatMap fun w =>
    (malformedFrom w.offset none w.text.toList).map fun m =>
      ⟨d.valuePosition m.1, "Unexpected invalid hex color \"#" ++ String.ofList m.2 ++ "\""⟩

def colorNoInvalidHex : Rule :=
  ofFindings "color-no-invalid-hex" "Disallow invalid hex colors" fun sheet =>
    sheet.declarations.flatMap malformedColors

end SheetLint.Rule
