import SheetLint.Rule
import SheetLint.Value.Word

/-!
The rule against units on zero lengths: `0px` is `0`. A number counts as zero when the nearest
floating-point number of 64 bits is zero, so a positive number may be small enough to count.
-/

namespace SheetLint.Rule

def lengthUnits : List String :=
  ["em", "ex", "ch", "rem", "vh", "vw", "vmin", "vmax", "cm", "mm", "q", "in", "pt", "pc", "px"]

/-- A number without its sign: the digits before and after the point, and its length. -/
structure Numeral where
  whole : List Char
  fraction : List Char
  length : Nat
deriving DecidableEq, Repr

def splitSign : List Char → Nat × List Char
  | [] => (0, [])
  | c :: cs => if c = '+' ∨ c = '-' then (1, cs) else (0, c :: cs)

/-- Cuts a word into a number and the text after it: digits, perhaps with a point and more digits,
or a point and digits. -/
def splitNumber? (word : List Char) : Option (Numeral × List Char) :=
  let (sign, cs) := splitSign word
  let whole := cs.takeWhile Char.isDigit
  match cs.dropWhile Char.isDigit with
  | '.' :: rest =>
    let fraction := rest.takeWhile Char.isDigit
    if whole.isEmpty && fraction.isEmpty then none
    else
      some (⟨whole, fraction, sign + whole.length + 1 + fraction.length⟩, rest.dropWhile Char.isDigit)
  | rest => if whole.isEmpty then none else some (⟨whole, [], sign + whole.length⟩, rest)

def naturalOf (digits : List Char) : Nat :=
  digits.foldl (fun n d => 10 * n + (d.toNat - '0'.toNat)) 0

/-- Whether a number is at most half of the smallest positive floating-point number. -/
def Numeral.isZero (n : Numeral) : Bool :=
  naturalOf (n.whole ++ n.fraction) * Nat.pow 2 1075 ≤ Nat.pow 10 n.fraction.length

def zeroLengthUnit? (w : Word) : Option Nat :=
  match splitNumber? w.text.toList with
  | some (n, unit) =>
    if n.isZero && lengthUnits.any (Text.eqIgnoringCase (String.ofList unit)) then
      some (w.offset + n.length)
    else none
  | none => none

/-- The findings of a declaration. Custom properties may hold anything. -/
def zeroLengths (d : Declaration) : List Finding :=
  if "--".toList.isPrefixOf d.prop.toList then []
  else
    (Value.words d.value ["url", "calc", "var"]).filterMap fun w =>
      (zeroLengthUnit? w).map fun offset => ⟨d.valuePosition offset, "Unexpected unit"⟩

def lengthZeroNoUnit : Rule :=
  ofFindings "length-zero-no-unit" "Disallow units for zero lengths" fun sheet =>
    sheet.declarations.flatMap zeroLengths

end SheetLint.Rule
