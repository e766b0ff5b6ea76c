import SheetLint.Tree
import SheetLint.Important
import SheetLint.ParseError

/-!
The lines of an indented style sheet. Every line that is not blank is one entry: a comment, an
at-rule, a declaration or the selector of a rule, with its indentation. A comment between `/*` and
`*/` is one entry even if it runs over several lines.
-/

namespace SheetLint.Indented

inductive Entry.Kind where
  | comment (text : String) (inline : Bool)
  | declaration (declaration : Declaration)
  | selector (text : String)
  | atRule (name params : String)
deriving DecidableEq, Repr

/-- A line that is not blank. -/
structure Entry where
  indent : Nat
  start : Position
  /-- The whole first line, without its line ending. -/
  raw : List Char
  kind : Entry.Kind
deriving DecidableEq, Repr

structure Line where
  number : Nat
  chars : List Char
deriving DecidableEq, Repr

def isIndent (c : Char) : Bool :=
  c == ' ' || c == '\t'

def splitLines (text : List Char) : List (List Char) :=
  text.foldr (fun c lines => if c = '\n' then [] :: lines else lines.modifyHead (c :: ·)) [[]]

theorem splitLines_cons (c : Char) (cs : List Char) : splitLines (c :: cs) =
    if c = '\n' then [] :: splitLines cs else (splitLines cs).modifyHead (c :: ·) := rfl

def dropReturn (line : List Char) : List Char :=
  if line.getLast? = some '\r' then line.dropLast else line

def linesOf (text : List Char) : List Line :=
  ((splitLines text).zipIdx 1).map fun l => ⟨l.2, dropReturn l.1⟩

def beforeClose? : List Char → Option (List Char)
  | c :: d :: rest =>
    if c = '*' ∧ d = '/' then some [] else (beforeClose? (d :: rest)).map (c :: ·)
  | _ => none

/-- The body of a comment whose first line goes on with `tail`, and the lines after the one that
closes it. -/
def commentBody? (tail : List Char) : List Line → Option (List Char × List Line)
  | [] => (beforeClose? tail).map fun body => (body, [])
  | line :: lines =>
    match beforeClose? tail with
    | some body => some (body, line :: lines)
    | none => (commentBody? line.chars lines).map fun r => (tail ++ '\n' :: r.1, r.2)

/-- Whether a character may follow the colon of a declaration, if there is one. -/
def endsProp : List Char → Bool
  | [] => true
  | c :: _ => Text.isBlank c

/-- A text cut at its first colon that a blank or the end follows; the colon is left out. -/
def splitColon? : List Char → Option (List Char × List Char)
  | [] => none
  | c :: cs =>
    if c = ':' ∧ endsProp cs then some ([], cs)
    else (splitColon? cs).map fun r => (c :: r.1, r.2)

/-- The declaration that a line makes, if it is one: the text before the colon is one word. -/
def declaration? (content : List Char) (start : Position) : Option Declaration :=
  match splitColon? content with
  | none => none
  | some (before, after) =>
    let prop := Text.trim before
    if prop.isEmpty || prop.any Text.isBlank then none
    else
      let (value, important) := splitImportant (Text.trim after)
      some
        { prop := String.ofList prop
          value := String.ofList value
          important
          start
          valueStart := start.advance (before ++ ':' :: after.takeWhile Text.isBlank) }

def isNameChar (c : Char) : Bool :=
  !Text.isBlank c && c != '('

def kindOf (content : List Char) (start : Position) (lines : List Line) :
    Except ParseError (Entry.Kind × List Line) :=
  match content with
  | '/' :: '/' :: rest => .ok (.comment (String.ofList (Text.trim rest)) true, lines)
  | '/' :: '*' :: rest =>
    match commentBody? rest lines with
    | none => .error ⟨.unclosedComment, start⟩
    | some (body, lines) => .ok (.comment (String.ofList (Text.trim body)) false, lines)
  | '@' :: rest =>
    .ok (.atRule (String.ofList (rest.takeWhile isNameChar))
      (String.ofList (Text.trim (rest.dropWhile isNameChar))), lines)
  | _ =>
    match declaration? content start with
    | some d => .ok (.declaration d, lines)
    | none => .ok (.selector (String.ofList content), lines)

def indentsWith (used : Option Char) (indent : List Char) : Bool :=
  match used, indent with
  | some u, _ => indent.all (· == u)
  | none, [] => true
  | none, c :: cs => cs.all (· == c)

theorem length_commentBody?_le {tail : List Char} {lines : List Line}
    {r : List Char × List Line} (h : commentBody? tail lines = some r) :
    r.2.length ≤ lines.length := by
  fun_induction commentBody? tail lines generalizing r with
  | case1 =>
    obtain ⟨body, _, rfl⟩ := Option.map_eq_some_iff.1 h
    simp
  | case2 => cases h; simp
  | case3 _ _ _ _ ih =>
    obtain ⟨r', hr, rfl⟩ := Option.map_eq_some_iff.1 h
    have := ih hr
    simp; omega

theorem length_kindOf_le {content : List Char} {start : Position} {lines : List Line}
    {r : Entry.Kind × List Line} (h : kindOf content start lines = .ok r) :
    r.2.length ≤ lines.length := by
  unfold kindOf at h
  split at h
  · cases h; simp
  · split at h
    · simp at h
    · next hb => cases h; exact length_commentBody?_le hb
  · cases h; simp
  · split at h <;> cases h <;> simp

def entriesOf (used : Option Char) : List Line → Except ParseError (List Entry)
  | [] => .ok []
  | line :: lines =>
    let indent := line.chars.takeWhile isIndent
    let content := Text.trimEnd (line.chars.dropWhile isIndent)
    let start : Position := ⟨line.number, indent.length + 1⟩
    if content.isEmpty then entriesOf used lines
    else if indentsWith used indent then
      match _h : kindOf content start lines with
      | .error e => .error e
      | .ok (kind, rest) =>
        (entriesOf (used.or indent.head?) rest).map (⟨indent.length, start, line.chars, kind⟩ :: ·)
    else .error ⟨.mixedIndentation, ⟨line.number, 1⟩⟩
termination_by lines => lines.length
decreasing_by
  · simp
  · have := length_kindOf_le (by assumption)
    simp at *; omega

def entries (text : List Char) : Except ParseError (List Entry) :=
  entriesOf none (linesOf text)

end SheetLint.Indented
