import SheetLint.Tree

/-!
What can be asked of a declaration: whether it sets a variable, and where a part of its value
stands in the source. Offsets into a value count the bytes of its UTF-8 form.
-/

namespace SheetLint

/-- The characters that fill exactly the first `n` bytes, if a character ends there. -/
def Text.takeBytes : Nat → List Char → Option (List Char)
  | 0, _ => some []
  | _ + 1, [] => none
  | n + 1, c :: cs =>
    if c.utf8Size ≤ n + 1 then (Text.takeBytes (n + 1 - c.utf8Size) cs).map (c :: ·) else none

namespace Declaration

/-- Where the byte at an offset of the value stands. Offsets past the end count as the end; an
offset inside a character counts as the start of the value. -/
def valuePosition (d : Declaration) (offset : Nat) : Position :=
  match Text.takeBytes (min offset d.value.utf8ByteSize) d.value.toList with
  | some before => d.valueStart.advance before
  | none => d.valueStart

/-- Whether the declaration sets a variable: `$name`, or `@name` with no interpolation first. -/
def isVariable (d : Declaration) : Bool :=
  match d.prop.toList with
  | '$' :: _ => true
  | '@' :: c :: _ => c != '{'
  | '@' :: [] => true
  | _ => false

end Declaration

end SheetLint
