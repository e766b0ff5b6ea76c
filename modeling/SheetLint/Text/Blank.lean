/-!
Blank characters and trimming. A character is blank when it has Unicode's White_Space property;
trimming takes the blanks off both ends and leaves those in the middle.
-/

namespace SheetLint.Text

/-- The twenty-five characters with the White_Space property. -/
def isBlank (c : Char) : Bool :=
  let n := c.toNat
  (9 ≤ n && n ≤ 13) || n == 0x20 || n == 0x85 || n == 0xA0 || n == 0x1680
    || (0x2000 ≤ n && n ≤ 0x200A) || n == 0x2028 || n == 0x2029 || n == 0x202F
    || n == 0x205F || n == 0x3000

def dropEndWhile {α : Type} (p : α → Bool) (xs : List α) : List α :=
  (xs.reverse.dropWhile p).reverse

def trimWhile {α : Type} (p : α → Bool) (xs : List α) : List α :=
  dropEndWhile p (xs.dropWhile p)

def trim (cs : List Char) : List Char :=
  trimWhile isBlank cs

def trimEnd (cs : List Char) : List Char :=
  dropEndWhile isBlank cs

def dropByteOrderMark : List Char → List Char
  | [] => []
  | c :: cs => if c = '\uFEFF' then cs else c :: cs

def lowerAscii (cs : List Char) : List Char :=
  cs.map Char.toLower

def eqIgnoringCase (a b : String) : Bool :=
  lowerAscii a.toList == lowerAscii b.toList

end SheetLint.Text
