import SheetLint.Text.Blank

/-!
Places in a source text. Lines and columns count from 1 and columns count characters; a newline
ends its line, and nothing else does.
-/

namespace SheetLint

/-- A place in a source text: the line and, on it, the column. -/
structure Position where
  line : Nat
  column : Nat
deriving DecidableEq, Repr

namespace Position

def start : Position := ⟨1, 1⟩

def after (p : Position) (c : Char) : Position :=
  if c = '\n' then ⟨p.line + 1, 1⟩ else ⟨p.line, p.column + 1⟩

/-- The place reached by walking over a text from `p`. -/
def advance (p : Position) (cs : List Char) : Position :=
  cs.foldl after p

@[simp]
theorem advance_nil (p : Position) : p.advance [] = p := rfl

@[simp]
theorem advance_cons (p : Position) (c : Char) (cs : List Char) :
    p.advance (c :: cs) = (p.after c).advance cs := rfl

@[simp]
theorem advance_append (p : Position) (cs ds : List Char) :
    p.advance (cs ++ ds) = (p.advance cs).advance ds :=
  List.foldl_append

def le (p q : Position) : Bool :=
  p.line < q.line || (p.line == q.line && p.column ≤ q.column)

end Position

/-- A character together with the place where it stands. -/
structure Cell where
  char : Char
  pos : Position
deriving DecidableEq, Repr

namespace Cell

/-- Puts the characters of a text that begins at `p` in front of the cells before it, last first. -/
def ofCharsOnto (cells : List Cell) (p : Position) : List Char → List Cell
  | [] => cells
  | c :: cs => ofCharsOnto (⟨c, p⟩ :: cells) (p.after c) cs

def ofChars (p : Position) (cs : List Char) : List Cell :=
  (ofCharsOnto [] p cs).reverse

theorem ofCharsOnto_eq (cells : List Cell) (p : Position) (cs : List Char) :
    ofCharsOnto cells p cs = ofCharsOnto [] p cs ++ cells := by
  induction cs generalizing cells p with
  | nil => rfl
  | cons c cs ih => rw [ofCharsOnto, ofCharsOnto, ih, ih [_]]; simp

@[simp]
theorem ofChars_nil (p : Position) : ofChars p [] = [] := rfl

@[simp]
theorem ofChars_cons (p : Position) (c : Char) (cs : List Char) :
    ofChars p (c :: cs) = ⟨c, p⟩ :: ofChars (p.after c) cs := by
  rw [ofChars, ofCharsOnto, ofCharsOnto_eq]
  simp [ofChars]

def isBlank (c : Cell) : Bool :=
  Text.isBlank c.char

def chars (cells : List Cell) : List Char :=
  cells.map char

@[simp]
theorem chars_ofChars (p : Position) (cs : List Char) : chars (ofChars p cs) = cs := by
  induction cs generalizing p with
  | nil => rfl
  | cons c cs ih => simpa [chars] using ih (p.after c)

def text (cells : List Cell) : String :=
  String.ofList (chars cells)

end Cell

end SheetLint
