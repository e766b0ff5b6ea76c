import SheetLint.Number.Binary64
import SheetLint.Yaml.Mark

/-!
Reading the scalars of YAML texts: plain, quoted, and block scalars. What stands between two words
of a scalar is a gap. Blanks within a line stay; a single break becomes a blank, and of several
breaks all but the first stay.
-/

namespace SheetLint.Yaml

/-- What stands between two words: blanks, or breaks, of which the first is kept apart. Both are
last first. -/
inductive Gap where
  | blanks (cs : List Char)
  | breaks (first : Option Char) (more : List Char)

namespace Gap

def none : Gap := blanks []

def addBlank (c : Char) : Gap → Gap
  | blanks cs => blanks (c :: cs)
  | breaks first more => breaks first more

def addBreak (c : Char) : Gap → Gap
  | blanks _ => breaks (some (breakChar c)) []
  | breaks first more => breaks first (breakChar c :: more)

def hasBreak : Gap → Bool
  | blanks _ => false
  | breaks _ _ => true

def text : Gap → List Char
  | blanks cs => cs
  | breaks (some '\n') [] => [' ']
  | breaks (some '\n') more => more
  | breaks first more => more ++ first.toList

end Gap

/-- What reading a scalar gives: its text, whether it may be followed by a key on its own line, and
the rest of the text. -/
structure Reading where
  text : String
  mark : Mark
  rest : List Char

/-! ## Plain scalars -/

def isFlowMark (c : Char) : Bool :=
  c == ',' || c == '[' || c == ']' || c == '{' || c == '}'

def endsPlain (flow : Bool) (c : Char) (rest : List Char) : Bool :=
  (c == ':' && atGap rest) || (flow && isFlowMark c)

/-- Whether a colon in a flow collection is out of place in a plain scalar. -/
def isStrayColon (flow : Bool) (c : Char) (rest : List Char) : Bool :=
  flow && c == ':' &&
    match rest with
    | [] => false
    | d :: _ => isFlowMark d || d == '?'

/-- Reads a plain scalar behind `text`, whose last character comes first, and a gap. Outside flow
collections a further line belongs to the scalar if its column is `indent` or more. The answer also
says whether the scalar is followed by a break. -/
def readPlain? (flow : Bool) (indent : Nat) (text : List Char) (gap : Gap) (inWord : Bool)
    (m : Mark) (cs : List Char) : Option (Reading × Bool) :=
  match cs with
  | [] => some (⟨String.ofList text.reverse, m, []⟩, gap.hasBreak)
  | '\r' :: '\n' :: rest => readPlain? flow indent text (gap.addBreak '\n') false (m.down 2) rest
  | c :: rest =>
    if isBreak c then readPlain? flow indent text (gap.addBreak c) false (m.down 1) rest
    else if isSpace c then
      if gap.hasBreak && m.column < indent && c == '\t' then none
      else readPlain? flow indent text (gap.addBlank c) false m.next rest
    else if !inWord && ((!flow && m.column < indent) || c == '#'
        || (m.column == 0 && atDocumentMark (c :: rest))) then
      some (⟨String.ofList text.reverse, m, c :: rest⟩, gap.hasBreak)
    else if isStrayColon flow c rest then none
    else if endsPlain flow c rest then
      some (⟨String.ofList text.reverse, m, c :: rest⟩, gap.hasBreak)
    else readPlain? flow indent (c :: (gap.text ++ text)) .none true m.next rest

/-! ## Quoted scalars -/

def hexValue? (c : Char) : Option Nat :=
  if c.isDigit then some (c.toNat - '0'.toNat)
  else if 'a' ≤ c ∧ c ≤ 'f' then some (c.toNat - 'a'.toNat + 10)
  else if 'A' ≤ c ∧ c ≤ 'F' then some (c.toNat - 'A'.toNat + 10)
  else none

def hexNumber? (ds : List Char) : Option Nat :=
  ds.foldl (fun n d => n.bind fun n => (hexValue? d).map fun v => 16 * n + v) (some 0)

def simpleEscape? (c : Char) : Option Char :=
  match c with
  | '0' => some '\x00'
  | 'a' => some '\x07'
  | 'b' => some '\x08'
  | 't' => some '\t'
  | '\t' => some '\t'
  | 'n' => some '\n'
  | 'v' => some '\x0b'
  | 'f' => some '\x0c'
  | 'r' => some '\r'
  | 'e' => some '\x1b'
  | ' ' => some ' '
  | '"' => some '"'
  | '/' => some '/'
  | '\\' => some '\\'
  | 'N' => some '\x85'
  | '_' => some '\xa0'
  | 'L' => some '\u2028'
  | 'P' => some '\u2029'
  | _ => none

def escapeLength (c : Char) : Nat :=
  match c with
  | 'x' => 2
  | 'u' => 4
  | 'U' => 8
  | _ => 0

/-- The character that the letter `c` after a backslash stands for, with the `n` characters that
belong to the escape. -/
def escape? (c : Char) (rest : List Char) : Option (Char × Nat) :=
  match escapeLength c with
  | 0 => (simpleEscape? c).map fun e => (e, 0)
  | n =>
    if rest.length < n then none
    else
      match hexNumber? (rest.take n) with
      | none => none
      | some v => if v.isValidChar then some (Char.ofNat v, n) else none

def readSingle? (text : List Char) (gap : Gap) (m : Mark) (cs : List Char) : Option Reading :=
  match cs with
  | [] => none
  | '\r' :: '\n' :: rest => readSingle? text (gap.addBreak '\n') (m.down 2) rest
  | '\'' :: '\'' :: rest => readSingle? ('\'' :: (gap.text ++ text)) .none (m.right 2) rest
  | c :: rest =>
    if isBreak c then readSingle? text (gap.addBreak c) (m.down 1) rest
    else if isSpace c then readSingle? text (gap.addBlank c) m.next rest
    else if m.column = 0 ∧ atDocumentMark (c :: rest) then none
    else if c = '\'' then some ⟨String.ofList (gap.text ++ text).reverse, m.next, rest⟩
    else readSingle? (c :: (gap.text ++ text)) .none m.next rest

/-- Reads a scalar in double quotes up to its closing quote. A backslash at the end of a line joins
the text before it to the next word. -/
def readDouble? (text : List Char) (gap : Gap) (m : Mark) (cs : List Char) : Option Reading :=
  match cs with
  | [] => none
  | c :: rest =>
    if isBreak c then
      let n := breakLength c rest
      readDouble? text (gap.addBreak c) (m.down n) (rest.drop (n - 1))
    else if isSpace c then readDouble? text (gap.addBlank c) m.next rest
    else if m.column = 0 ∧ atDocumentMark (c :: rest) then none
    else if c = '"' then some ⟨String.ofList (gap.text ++ text).reverse, m.next, rest⟩
    else if c = '\\' then
      match rest with
      | [] => none
      | d :: rest =>
        if isBreak d then
          let n := breakLength d rest
          readDouble? (gap.text ++ text) (.breaks none []) (m.next.down n) (rest.drop (n - 1))
        else
          match escape? d rest with
          | none => none
          | some (e, n) =>
            readDouble? (e :: (gap.text ++ text)) .none (m.right (2 + n)) (rest.drop n)
    else readDouble? (c :: (gap.text ++ text)) .none m.next rest
termination_by cs.length
decreasing_by all_goals simp <;> omega

/-! ## Block scalars -/

/-- What becomes of the breaks at the end of a block scalar. -/
inductive Chomping where
  | strip
  | clip
  | keep
deriving DecidableEq, Repr

structure BlockHeader where
  literal : Bool
  chomping : Chomping
  increment : Option Nat

def chomping? (c : Char) : Option Chomping :=
  if c = '+' then some .keep else if c = '-' then some .strip else none

def increment? (c : Char) : Option Nat :=
  if c.isDigit && c != '0' then some (c.toNat - '0'.toNat) else none

/-- The header that the characters behind the first describe, and what follows them. -/
def readBlockHeader (literal : Bool) (cs : List Char) : BlockHeader × List Char :=
  match cs with
  | [] => (⟨literal, .clip, none⟩, [])
  | c :: rest =>
    match chomping? c, increment? c with
    | some ch, _ =>
      match rest with
      | d :: more =>
        match increment? d with
        | some n => (⟨literal, ch, some n⟩, more)
        | none => (⟨literal, ch, none⟩, rest)
      | [] => (⟨literal, ch, none⟩, [])
    | none, some n =>
      match rest with
      | d :: more =>
        match chomping? d with
        | some ch => (⟨literal, ch, some n⟩, more)
        | none => (⟨literal, .clip, some n⟩, rest)
      | [] => (⟨literal, .clip, some n⟩, [])
    | none, none => (⟨literal, .clip, none⟩, c :: rest)

/-- The empty lines in front of a block scalar whose indentation is not known yet. -/
structure EmptyLines where
  breaks : List Char
  width : Nat
  mark : Mark
  rest : List Char

/-- Reads empty lines. Indentation with a tab is refused. -/
def readEmptyLines? (breaks : List Char) (width : Nat) (m : Mark) (cs : List Char) :
    Option EmptyLines :=
  match cs with
  | [] => some ⟨breaks, max width m.column, m, []⟩
  | '\r' :: '\n' :: rest => readEmptyLines? ('\n' :: breaks) (max width m.column) (m.down 2) rest
  | c :: rest =>
    if c = ' ' then readEmptyLines? breaks width m.next rest
    else if c = '\t' then none
    else if isBreak c then
      readEmptyLines? (breakChar c :: breaks) (max width m.column) (m.down 1) rest
    else some ⟨breaks, max width m.column, m, c :: rest⟩

structure Block where
  text : List Char
  first : List Char
  more : List Char
  startsBlank : Bool
  inLine : Bool

namespace Block

/-- Begins a line with the character `c`. In a folded scalar a break between two lines becomes a
blank, unless one of the lines begins with a blank. -/
def begin (b : Block) (literal : Bool) (c : Char) : Block :=
  let folds := !literal && b.first == ['\n'] && !b.startsBlank && !isSpace c
  let before := if folds then (if b.more.isEmpty then [' '] else []) else b.first
  ⟨c :: (b.more ++ before ++ b.text), [], [], isSpace c, true⟩

def finish (b : Block) : Chomping → List Char
  | .strip => b.text
  | .clip => b.first ++ b.text
  | .keep => b.more ++ b.first ++ b.text

def addBreak (b : Block) (c : Char) : Block :=
  if b.inLine then { b with first := [breakChar c], inLine := false }
  else { b with more := breakChar c :: b.more }

end Block

def readBlock? (h : BlockHeader) (indent : Nat) (b : Block) (m : Mark) (cs : List Char) :
    Option Reading :=
  match cs with
  | [] => some ⟨String.ofList (b.finish h.chomping).reverse, m, []⟩
  | '\r' :: '\n' :: rest => readBlock? h indent (b.addBreak '\n') (m.down 2) rest
  | c :: rest =>
    if isBreak c then readBlock? h indent (b.addBreak c) (m.down 1) rest
    else if b.inLine then readBlock? h indent { b with text := c :: b.text } m.next rest
    else if m.column < indent then
      if c = ' ' then readBlock? h indent b m.next rest
      else if c = '\t' then none
      else some ⟨String.ofList (b.finish h.chomping).reverse, m, c :: rest⟩
    else if m.column = indent then readBlock? h indent (b.begin h.literal c) m.next rest
    else some ⟨String.ofList (b.finish h.chomping).reverse, m, c :: rest⟩

/-- What follows blanks and a comment, if that is the end of the line. -/
def toLineEnd? (m : Mark) (cs : List Char) : Option (Mark × List Char) :=
  let blanks := cs.takeWhile isSpace
  let (m, cs) := (m.right blanks.length, cs.dropWhile isSpace)
  let comment := if cs.head? = some '#' then cs.takeWhile (!isBreak ·) else []
  let (m, cs) := (m.right comment.length, cs.drop comment.length)
  match cs with
  | [] => some (m, [])
  | c :: rest =>
    if isBreak c then
      let n := breakLength c rest
      some (m.down n, rest.drop (n - 1))
    else none

/-- Reads a block scalar behind its first character. `outer` is the indentation of what it stands
in. Without an increment the first line with text decides how deep the text is indented. -/
def readBlockScalar? (literal : Bool) (outer : Option Nat) (m : Mark) (cs : List Char) :
    Option Reading :=
  let (header, rest) := readBlockHeader literal cs
  match toLineEnd? (m.right (cs.length - rest.length)) rest with
  | none => none
  | some (m, cs) =>
    match header.increment with
    | some n => readBlock? header (outer.getD 0 + n) ⟨[], [], [], false, false⟩ m cs
    | none =>
      match readEmptyLines? [] 0 m cs with
      | none => none
      | some e =>
        let least := match outer with
          | some i => i + 1
          | none => 1
        readBlock? header (max e.width least) ⟨[], [], e.breaks, false, false⟩ e.mark e.rest

end SheetLint.Yaml
