import SheetLint.Tree
import SheetLint.ParseError
import SheetLint.Brace.Flavor

/-!
The pieces of a style sheet with braces. Read from left to right, a text is a sequence of comments,
statements, block openings and block closings; how deep the blocks are nested plays no part here.

Each reader takes a buffer of the cells collected so far, last first, and the cells still to be
read, and hands back both. `readString`, `readComment` and `readInterpolation` stop after the
delimiter that closes what they read and fail when there is none; `readStatement` stops before the
character that ends the statement. `Piece.next` reads one piece, and takes at least one cell for it.
-/

namespace SheetLint.Brace

/-- What a style sheet with braces consists of. -/
inductive Piece where
  | comment (comment : Comment)
  | statement (text : List Cell)
  | opening (text : List Cell) (brace : Position)
  | closing (brace : Position)
deriving DecidableEq, Repr

/-- The collected cells, last first, and the cells that follow them. -/
abbrev Reading := List Cell × List Cell

/-- Reads on to the end of a string. A backslash takes the next character, and a string cannot
run over the end of its line. -/
def readString (quote : Char) (buffer : List Cell) : List Cell → Option Reading
  | [] => none
  | c :: rest =>
    if c.char = '\n' then none
    else if c.char = '\\' then
      match rest with
      | [] => none
      | d :: rest => readString quote (d :: c :: buffer) rest
    else if c.char = quote then some (c :: buffer, rest)
    else readString quote (c :: buffer) rest

/-- Reads on to the star and the slash that close a comment. -/
def readComment (buffer : List Cell) : List Cell → Option Reading
  | c :: d :: rest =>
    if c.char = '*' ∧ d.char = '/' then some (d :: c :: buffer, rest)
    else readComment (c :: buffer) (d :: rest)
  | _ => none

/-- Reads on to the brace that closes an interpolation in which `depth` more braces are open. -/
def readInterpolation (depth : Nat) (buffer : List Cell) : List Cell → Option Reading
  | [] => none
  | c :: rest =>
    if c.char = '{' then readInterpolation (depth + 1) (c :: buffer) rest
    else if c.char = '}' then
      match depth with
      | 0 => some (c :: buffer, rest)
      | depth + 1 => readInterpolation depth (c :: buffer) rest
    else readInterpolation depth (c :: buffer) rest

/-- The cells after a comment that runs to the end of the line; they begin with the newline. -/
def afterLine (cells : List Cell) : List Cell :=
  cells.dropWhile (·.char != '\n')

def startsWith (c : Char) : List Cell → Bool
  | [] => false
  | d :: _ => d.char = c

/-- Nothing is lost between a buffer and a reading that grew out of it, and something was read. -/
def Reading.Grows (buffer cells : List Cell) (r : Reading) : Prop :=
  ∃ taken, taken ≠ [] ∧ cells = taken ++ r.2 ∧ r.1 = taken.reverse ++ buffer

theorem Reading.Grows.cons {buffer cells : List Cell} {r : Reading} {c : Cell}
    (h : Grows (c :: buffer) cells r) : Grows buffer (c :: cells) r := by
  obtain ⟨taken, _, rfl, hr⟩ := h
  exact ⟨c :: taken, by simp, by simp, by simp [hr]⟩

theorem Reading.Grows.length_lt {buffer cells : List Cell} {r : Reading} (h : Grows buffer cells r) :
    r.2.length < cells.length := by
  obtain ⟨taken, ne, rfl, _⟩ := h
  have := List.length_pos_iff.mpr ne
  simp; omega

theorem readString_grows {quote : Char} {buffer cells : List Cell} {r : Reading}
    (h : readString quote buffer cells = some r) : r.Grows buffer cells := by
  fun_induction readString quote buffer cells with
  | case1 => simp at h
  | case2 => simp at h
  | case3 => simp at h
  | case4 buffer c _ _ d rest ih => exact (ih h).cons.cons
  | case5 buffer c rest => cases h; exact ⟨[c], by simp, rfl, rfl⟩
  | case6 buffer c rest _ _ _ ih => exact (ih h).cons

theorem readComment_grows {buffer cells : List Cell} {r : Reading}
    (h : readComment buffer cells = some r) : r.Grows buffer cells := by
  fun_induction readComment buffer cells with
  | case1 buffer c d rest => cases h; exact ⟨[c, d], by simp, rfl, rfl⟩
  | case2 buffer c d rest _ ih => exact (ih h).cons
  | case3 => simp at h

theorem readInterpolation_grows {depth : Nat} {buffer cells : List Cell} {r : Reading}
    (h : readInterpolation depth buffer cells = some r) : r.Grows buffer cells := by
  fun_induction readInterpolation depth buffer cells with
  | case1 => simp at h
  | case2 depth buffer c rest _ ih => exact (ih h).cons
  | case3 buffer c rest => cases h; exact ⟨[c], by simp, rfl, rfl⟩
  | case4 buffer c rest _ _ depth ih => exact (ih h).cons
  | case5 depth buffer c rest _ _ ih => exact (ih h).cons

theorem length_afterLine_le (cells : List Cell) : (afterLine cells).length ≤ cells.length :=
  (List.dropWhile_suffix _).length_le

/-- Reads one statement, up to the first `;` or brace that stands outside of strings, comments,
parentheses and interpolations. A comment that runs to the end of the line is not collected. -/
def readStatement (flavor : Flavor) (parens : Nat) (buffer : List Cell) :
    List Cell → Except ParseError Reading
  | [] => .ok (buffer, [])
  | c :: rest =>
    if c.char = '"' ∨ c.char = '\'' then
      match _h : readString c.char (c :: buffer) rest with
      | none => .error ⟨.unclosedString, c.pos⟩
      | some r => readStatement flavor parens r.1 r.2
    else if c.char = '/' ∧ startsWith '*' rest then
      match _h : readComment (rest.take 1 ++ c :: buffer) (rest.drop 1) with
      | none => .error ⟨.unclosedComment, c.pos⟩
      | some r => readStatement flavor parens r.1 r.2
    else if c.char = '/' ∧ parens = 0 ∧ flavor.lineComments ∧ startsWith '/' rest then
      readStatement flavor parens buffer (afterLine rest)
    else if flavor.interpolation = some c.char ∧ startsWith '{' rest then
      match _h : readInterpolation 0 (rest.take 1 ++ c :: buffer) (rest.drop 1) with
      | none => .error ⟨.unclosedInterpolation, c.pos⟩
      | some r => readStatement flavor parens r.1 r.2
    else if c.char = '(' then readStatement flavor (parens + 1) (c :: buffer) rest
    else if c.char = ')' then readStatement flavor (parens - 1) (c :: buffer) rest
    else if parens = 0 ∧ (c.char = ';' ∨ c.char = '{' ∨ c.char = '}') then
      .ok (buffer, c :: rest)
    else readStatement flavor parens (c :: buffer) rest
termination_by cells => cells.length
decreasing_by
  · have := (readString_grows (by assumption)).length_lt
    simp; omega
  · have := (readComment_grows (by assumption)).length_lt
    simp at this ⊢; omega
  · have := length_afterLine_le rest
    simp; omega
  · have := (readInterpolation_grows (by assumption)).length_lt
    simp at this ⊢; omega
  all_goals simp

theorem length_readStatement_le {flavor : Flavor} {parens : Nat} {buffer cells : List Cell}
    {r : Reading} (h : readStatement flavor parens buffer cells = .ok r) :
    r.2.length ≤ cells.length := by
  fun_induction readStatement flavor parens buffer cells with
  | case1 => cases h; simp
  | case2 => simp at h
  | case3 _ _ c rest _ r' hr ih =>
    have := (readString_grows hr).length_lt
    have := ih h
    simp; omega
  | case4 => simp at h
  | case5 _ _ c rest _ _ r' hr ih =>
    have := (readComment_grows hr).length_lt
    have := ih h
    simp at *; omega
  | case6 _ _ c rest _ _ _ ih =>
    have := length_afterLine_le rest
    have := ih h
    simp; omega
  | case7 => simp at h
  | case8 _ _ c rest _ _ _ _ r' hr ih =>
    have := (readInterpolation_grows hr).length_lt
    have := ih h
    simp at *; omega
  | case9 _ _ c rest _ _ _ _ _ ih => have := ih h; simp; omega
  | case10 _ _ c rest _ _ _ _ _ _ ih => have := ih h; simp; omega
  | case11 => cases h; simp
  | case12 _ _ c rest _ _ _ _ _ _ _ ih => have := ih h; simp; omega

theorem length_readStatement_lt {flavor : Flavor} {c : Cell} {rest : List Cell} {r : Reading}
    (h : readStatement flavor 0 [] (c :: rest) = .ok r)
    (hc : ¬(c.char = ';' ∨ c.char = '{' ∨ c.char = '}')) : r.2.length < (c :: rest).length := by
  rw [readStatement] at h
  split at h
  · split at h
    · simp at h
    · next r' hr =>
      have := (readString_grows hr).length_lt
      have := length_readStatement_le h
      simp; omega
  split at h
  · split at h
    · simp at h
    · next r' hr =>
      have := (readComment_grows hr).length_lt
      have := length_readStatement_le h
      simp at *; omega
  split at h
  · have := length_afterLine_le rest
    have := length_readStatement_le h
    simp; omega
  split at h
  · split at h
    · simp at h
    · next r' hr =>
      have := (readInterpolation_grows hr).length_lt
      have := length_readStatement_le h
      simp at *; omega
  split at h
  · have := length_readStatement_le h
    simp; omega
  split at h
  · have := length_readStatement_le h
    simp; omega
  split at h
  · next hs => exact absurd hs.2 hc
  · have := length_readStatement_le h
    simp; omega

namespace Piece

def commentOf (c : Cell) (body : List Cell) (inline : Bool) : Piece :=
  .comment ⟨String.ofList (Text.trim (Cell.chars body)), c.pos, inline⟩

def collected (buffer : List Cell) : List Cell :=
  Text.trimWhile Cell.isBlank buffer.reverse

/-- The piece that a collected statement makes with what follows it: an opening brace belongs to
the piece, a `;` is passed over, and a closing brace stays. -/
def ofStatement (buffer : List Cell) : List Cell → Piece × List Cell
  | [] => (.statement (collected buffer), [])
  | d :: rest =>
    if d.char = '{' then (.opening (collected buffer) d.pos, rest)
    else if d.char = ';' then (.statement (collected buffer), rest)
    else (.statement (collected buffer), d :: rest)

def ofCell (flavor : Flavor) (c : Cell) (rest : List Cell) : Except ParseError (Piece × List Cell) :=
  if c.char = '}' then .ok (.closing c.pos, rest)
  else if c.char = '{' then .ok (.opening [] c.pos, rest)
  else if c.char = '/' ∧ startsWith '*' rest then
    match readComment [] (rest.drop 1) with
    | none => .error ⟨.unclosedComment, c.pos⟩
    | some (buffer, rest) => .ok (commentOf c (buffer.drop 2).reverse false, rest)
  else if c.char = '/' ∧ flavor.lineComments ∧ startsWith '/' rest then
    .ok (commentOf c ((rest.drop 1).takeWhile (·.char != '\n')) true, afterLine rest)
  else
    (readStatement flavor 0 [] (c :: rest)).map fun r => ofStatement r.1 r.2

def isGap (c : Cell) : Bool :=
  c.isBlank || c.char == ';'

def next (flavor : Flavor) (cells : List Cell) : Except ParseError (Option (Piece × List Cell)) :=
  match cells.dropWhile isGap with
  | [] => .ok none
  | c :: rest => (ofCell flavor c rest).map some

theorem length_ofStatement_le (buffer rest : List Cell) :
    (ofStatement buffer rest).2.length ≤ rest.length := by
  fun_cases ofStatement buffer rest <;> simp_all

theorem length_ofCell_lt {flavor : Flavor} {c : Cell} {rest : List Cell} {p : Piece × List Cell}
    (hc : isGap c = false) (h : ofCell flavor c rest = .ok p) :
    p.2.length < (c :: rest).length := by
  unfold ofCell at h
  split at h
  · cases h; simp
  next closing =>
  split at h
  · cases h; simp
  next opening =>
  split at h
  · split at h
    · simp at h
    · next hr =>
      have := (readComment_grows hr).length_lt
      cases h
      simp at *; omega
  split at h
  · have := length_afterLine_le rest
    cases h
    simp; omega
  cases hs : readStatement flavor 0 [] (c :: rest) with
  | error e => simp [hs, Except.map] at h
  | ok r =>
    simp only [hs, Except.map, Except.ok.injEq] at h
    subst h
    have := length_ofStatement_le r.1 r.2
    have := length_readStatement_lt hs (by simp [isGap] at hc; simp [hc, opening, closing])
    omega

theorem length_next_lt {flavor : Flavor} {cells : List Cell} {p : Piece} {rest : List Cell}
    (h : next flavor cells = .ok (some (p, rest))) : rest.length < cells.length := by
  unfold next at h
  have := (List.dropWhile_suffix isGap (l := cells)).length_le
  split at h
  · simp at h
  next c more hd =>
  have gap : isGap c = false := by
    have := List.head?_dropWhile_not isGap cells
    simpa [hd] using this
  cases ho : ofCell flavor c more with
  | error e => simp [ho, Except.map] at h
  | ok r =>
    simp only [ho, Except.map, Except.ok.injEq, Option.some.injEq] at h
    subst h
    have := length_ofCell_lt gap ho
    simp only [hd] at *
    omega

end Piece

end SheetLint.Brace
