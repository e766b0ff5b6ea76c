/-!
Places in YAML texts, and the characters that lay them out: blanks within a line, and the breaks
between lines.
-/

namespace SheetLint.Yaml

/-- A place in a text. All three numbers begin at zero and count characters. -/
structure Mark where
  index : Nat
  line : Nat
  column : Nat
deriving DecidableEq, Repr

namespace Mark

def right (m : Mark) (n : Nat) : Mark :=
  ⟨m.index + n, m.line, m.column + n⟩

def next (m : Mark) : Mark :=
  m.right 1

def down (m : Mark) (n : Nat) : Mark :=
  ⟨m.index + n, m.line + 1, 0⟩

end Mark

def isAllowed (c : Char) : Bool :=
  let n := c.toNat
  n == 0x09 || n == 0x0A || n == 0x0D || (0x20 ≤ n && n ≤ 0x7E) || n == 0x85
    || (0xA0 ≤ n && n ≤ 0xD7FF) || (0xE000 ≤ n && n ≤ 0xFFFD) || 0x10000 ≤ n

def isSpace (c : Char) : Bool :=
  c == ' ' || c == '\t'

def isBreak (c : Char) : Bool :=
  c == '\n' || c == '\r' || c == '\x85' || c == '\u2028' || c == '\u2029'

/-- What a break adds to a text: the two separators of Unicode stay as they are. -/
def breakChar (c : Char) : Char :=
  if c = '\u2028' ∨ c = '\u2029' then c else '\n'

def atGap : List Char → Bool
  | [] => true
  | c :: _ => isSpace c || isBreak c

def breakLength (c : Char) (rest : List Char) : Nat :=
  if c = '\r' ∧ rest.head? = some '\n' then 2 else 1

/-- Whether a text, seen from the start of a line, begins with the mark between documents. -/
def atDocumentMark (cs : List Char) : Bool :=
  (['-', '-', '-'].isPrefixOf cs || ['.', '.', '.'].isPrefixOf cs) && atGap (cs.drop 3)

def isNameChar (c : Char) : Bool :=
  c.isAlphanum || c == '_' || c == '-'

end SheetLint.Yaml
