import SheetLint.Yaml.Scalar

/-!
The tokens of YAML texts. `Lexeme.read?` cuts a text into lexemes by their first characters alone;
`Layout.accept?` adds what the layout says: where block collections begin and end, and which
lexemes turn out to be keys because a colon follows them.
-/

namespace SheetLint.Yaml

inductive Token where
  | version (major minor : Nat)
  | tagHandle (handle tagPrefix : String)
  | documentStart
  | documentEnd
  | blockSequence
  | blockMapping
  | blockEnd
  | flowSequence
  | flowSequenceEnd
  | flowMapping
  | flowMappingEnd
  | blockEntry
  | flowEntry
  | key
  | value
  | reference (name : String)
  | anchor (name : String)
  | tag (handle suffix : String)
  | scalar (plain : Bool) (text : String)
  | streamEnd
deriving DecidableEq, Repr

/-! ## Lexemes -/

/-- A lexeme: a token for which the layout does not matter, or a sign whose meaning it decides. -/
inductive Lexeme where
  | streamEnd
  /-- A directive or a mark between documents. -/
  | betweenDocuments (t : Token)
  | openFlow (t : Token)
  | closeFlow (t : Token)
  | flowEntry
  | blockEntry
  | key
  | value
  /-- The properties of a node, an alias or a scalar, each of which may begin a key. -/
  | content (t : Token)
  /-- A plain scalar with a break behind it. -/
  | plainLines (t : Token)
  | blockScalar (t : Token)

structure Lexed where
  lexeme : Lexeme
  mark : Mark
  rest : List Char

/-- What lexemes depend on: whether a flow collection is open, and the column of the innermost open
block collection. -/
structure Surroundings where
  flow : Bool
  indent : Option Nat

namespace Lexeme

def isTagChar (c : Char) : Bool :=
  isNameChar c || ";/?:@&=+$.!~*'()".toList.contains c

/-- The characters of a tag up to the first that does not belong to it. A percent sign stands with
two digits for a byte. -/
def readTagText? (flowMarks : Bool) (bytes : List UInt8) (m : Mark) (cs : List Char) :
    Option (List UInt8 × Mark × List Char) :=
  match cs with
  | '%' :: a :: b :: rest =>
    match hexValue? a, hexValue? b with
    | some a, some b => readTagText? flowMarks (UInt8.ofNat (16 * a + b) :: bytes) (m.right 3) rest
    | _, _ => none
  | c :: rest =>
    if c = '%' then none
    else if isTagChar c || (flowMarks && (c == ',' || c == '[' || c == ']')) then
      readTagText? flowMarks (c.toString.toUTF8.toList.reverse ++ bytes) m.next rest
    else some (bytes, m, c :: rest)
  | [] => some (bytes, m, [])

def tagText? (flowMarks : Bool) (before : List Char) (m : Mark) (cs : List Char) :
    Option (String × Mark × List Char) :=
  match readTagText? flowMarks (String.ofList before).toUTF8.toList.reverse m cs with
  | none => none
  | some (bytes, m, rest) =>
    (String.fromUTF8? ⟨bytes.reverse.toArray⟩).map fun text => (text, m, rest)

/-- Reads a tag behind its exclamation mark. It is written out between angle brackets, or it has a
handle and a suffix. -/
def readTag? (m : Mark) (cs : List Char) : Option (Token × Mark × List Char) :=
  match cs with
  | '<' :: rest =>
    match tagText? true [] m.next rest with
    | some (text, m, '>' :: rest) => if text.isEmpty then none else some (.tag "" text, m.next, rest)
    | _ => none
  | cs =>
    let name := cs.takeWhile isNameChar
    match cs.dropWhile isNameChar with
    | '!' :: rest =>
      match tagText? false [] (m.right (name.length + 1)) rest with
      | none => none
      | some (text, m, rest) =>
        if text.isEmpty then none
        else some (.tag (String.ofList ('!' :: name ++ ['!'])) text, m, rest)
    | rest =>
      match tagText? false name (m.right name.length) rest with
      | none => none
      | some (text, m, rest) =>
        some (if text.isEmpty then .tag "" "!" else .tag "!" text, m, rest)

def readNodeTag? (flow : Bool) (m : Mark) (cs : List Char) : Option Lexed :=
  match readTag? m cs with
  | none => none
  | some (t, m, rest) =>
    if atGap rest || (flow && rest.head? == some ',') then some ⟨.content t, m, rest⟩ else none

def endsName (cs : List Char) : Bool :=
  atGap cs || (match cs with
    | [] => true
    | c :: _ => "?:,]\x7d%@\x60".toList.contains c)

def readName? (make : String → Token) (m : Mark) (cs : List Char) : Option Lexed :=
  let name := cs.takeWhile isNameChar
  let rest := cs.dropWhile isNameChar
  if name.isEmpty || !endsName rest then none
  else some ⟨.content (make (String.ofList name)), m.right name.length, rest⟩

def number? (ds : List Char) : Option Nat :=
  if ds.isEmpty || 9 < ds.length then none
  else some (ds.foldl (fun n d => 10 * n + (d.toNat - '0'.toNat)) 0)

def readVersion? (m : Mark) (cs : List Char) : Option (Token × Mark × List Char) :=
  let major := cs.takeWhile Char.isDigit
  match cs.dropWhile Char.isDigit with
  | '.' :: rest =>
    let minor := rest.takeWhile Char.isDigit
    match number? major, number? minor with
    | some a, some b =>
      some (.version a b, m.right (major.length + 1 + minor.length), rest.dropWhile Char.isDigit)
    | _, _ => none
  | _ => none

/-- Reads the handle of a tag and what it stands for, in a directive. -/
def readTagHandle? (m : Mark) (cs : List Char) : Option (Token × Mark × List Char) :=
  match cs with
  | '!' :: rest =>
    let name := rest.takeWhile isNameChar
    let (handle, rest) := match rest.dropWhile isNameChar with
      | '!' :: more => ('!' :: name ++ ['!'], more)
      | more => ('!' :: name, more)
    let blanks := rest.takeWhile isSpace
    if blanks.isEmpty || (handle.getLast? != some '!') then none
    else
      match tagText? true [] (m.right (handle.length + blanks.length)) (rest.dropWhile isSpace) with
      | none => none
      | some (text, m, rest) =>
        if text.isEmpty || !atGap rest then none
        else some (.tagHandle (String.ofList handle) text, m, rest)
  | _ => none

/-- Reads a directive behind its percent sign, with the end of its line. -/
def readDirective? (m : Mark) (cs : List Char) : Option Lexed :=
  let name := cs.takeWhile isNameChar
  let rest := cs.dropWhile isNameChar
  let blanks := rest.takeWhile isSpace
  let m := m.right (name.length + blanks.length)
  let body := rest.dropWhile isSpace
  let directive :=
    if !atGap rest then none
    else if name = "YAML".toList then readVersion? m body
    else if name = "TAG".toList then readTagHandle? m body
    else none
  match directive with
  | none => none
  | some (t, m, rest) =>
    (toLineEnd? m rest).map fun r => ⟨.betweenDocuments t, r.1, r.2⟩

def beginsPlain (flow : Bool) (c : Char) (rest : List Char) : Bool :=
  if c = '-' then
    match rest with
    | [] => true
    | d :: _ => !isSpace d
  else if c = '?' ∨ c = ':' then !flow && !atGap rest
  else !(isSpace c || isBreak c || isFlowMark c || "#&*!|>'\"%@\x60".toList.contains c)

def readPlainScalar? (s : Surroundings) (m : Mark) (cs : List Char) : Option Lexed :=
  let indent := match s.indent with
    | some i => i + 1
    | none => 0
  (readPlain? s.flow indent [] .none true m cs).map fun (r, hasBreak) =>
    let t := Token.scalar true r.text
    ⟨if hasBreak then .plainLines t else .content t, r.mark, r.rest⟩

def ofReading (make : Token → Lexeme) (r : Option Reading) : Option Lexed :=
  r.map fun r => ⟨make (.scalar false r.text), r.mark, r.rest⟩

def read? (s : Surroundings) (m : Mark) (c : Char) (rest : List Char) : Option Lexed :=
  let one (l : Lexeme) : Option Lexed := some ⟨l, m.next, rest⟩
  if m.column = 0 ∧ c = '%' then readDirective? m.next rest
  else if m.column = 0 ∧ atDocumentMark (c :: rest) then
    let t := if c = '-' then Token.documentStart else .documentEnd
    some ⟨.betweenDocuments t, m.right 3, rest.drop 2⟩
  else if c = '[' then one (.openFlow .flowSequence)
  else if c = '{' then one (.openFlow .flowMapping)
  else if c = ']' then one (.closeFlow .flowSequenceEnd)
  else if c = '}' then one (.closeFlow .flowMappingEnd)
  else if c = ',' then one .flowEntry
  else if c = '-' ∧ atGap rest then one .blockEntry
  else if c = '?' ∧ (s.flow ∨ atGap rest) then one .key
  else if c = ':' ∧ (s.flow ∨ atGap rest) then one .value
  else if c = '*' then readName? .reference m.next rest
  else if c = '&' then readName? .anchor m.next rest
  else if c = '!' then readNodeTag? s.flow m.next rest
  else if (c = '|' ∨ c = '>') ∧ !s.flow then
    ofReading .blockScalar (readBlockScalar? (c == '|') s.indent m.next rest)
  else if c = '\'' then ofReading .content (readSingle? [] .none m.next rest)
  else if c = '"' then ofReading .content (readDouble? [] .none m.next rest)
  else if beginsPlain s.flow c rest then readPlainScalar? s m (c :: rest)
  else none

end Lexeme

/-! ## The layout -/

structure KeyStart where
  before : Nat
  required : Bool
  mark : Mark

/-- A key and its colon are at most this many characters apart. -/
def maxKeyLength : Nat := 1024

/-- Whether a key that began at a place cannot go on to another: it would be too long. -/
def KeyStart.isStale (k : KeyStart) (m : Mark) : Bool :=
  k.mark.line < m.line || k.mark.index + maxKeyLength < m.index

/-- The layout of a text as far as it has been read. -/
structure Layout where
  tokens : List Token
  columns : List Nat
  keyStart : Option KeyStart
  /-- The same for what stands around each open flow collection, innermost first. -/
  outer : List (Option KeyStart)
  keyAllowed : Bool

namespace Layout

def start : Layout := ⟨[], [], none, [], true⟩

def inFlow (l : Layout) : Bool :=
  !l.outer.isEmpty

def push (l : Layout) (t : Token) : Layout :=
  { l with tokens := t :: l.tokens }

def insertAt (l : Layout) (n : Nat) (t : Token) : Layout :=
  let after := l.tokens.length - n
  { l with tokens := l.tokens.take after ++ t :: l.tokens.drop after }

/-- Forgets where keys began if they have become too long. A key that is required must not. -/
def dropStale? (m : Mark) : Option KeyStart → Option (Option KeyStart)
  | none => some none
  | some k => if k.isStale m then (if k.required then none else some none) else some (some k)

/-- Forgets where keys began if they have become too long, for all open collections. -/
def dropAllStale? (l : Layout) (m : Mark) : Option Layout :=
  match dropStale? m l.keyStart, l.outer.mapM (dropStale? m) with
  | some keyStart, some outer => some { l with keyStart, outer }
  | _, _ => none

def dropKey? (l : Layout) : Option Layout :=
  match l.keyStart with
  | none => some l
  | some k => if k.required then none else some { l with keyStart := none }

def saveKey? (l : Layout) (m : Mark) : Option Layout :=
  if l.keyAllowed then
    l.dropKey?.map fun l =>
      let required := !l.inFlow && l.columns.head? == some m.column
      { l with keyStart := some ⟨l.tokens.length, required, m⟩ }
  else some l

/-- Opens a block collection at a column that is deeper than those around it, behind the first `n`
tokens. -/
def indent (l : Layout) (column n : Nat) (t : Token) : Layout :=
  let deeper := match l.columns with
    | [] => true
    | c :: _ => c < column
  if !l.inFlow && deeper then { l.insertAt n t with columns := column :: l.columns } else l

def closeTo (tokens : List Token) (column : Option Nat) : List Nat → List Token × List Nat
  | [] => (tokens, [])
  | c :: columns =>
    let deeper := match column with
      | none => true
      | some column => column < c
    if deeper then closeTo (.blockEnd :: tokens) column columns else (tokens, c :: columns)

/-- Closes the block collections that are deeper than a column, or all of them. -/
def unindent (l : Layout) (column : Option Nat) : Layout :=
  if l.inFlow then l
  else
    let (tokens, columns) := closeTo l.tokens column l.columns
    { l with tokens, columns }

/-- Adds a dash or a question mark of a block collection, or its counterpart in a flow
collection. -/
def enter? (l : Layout) (m : Mark) (collection t : Token) (keyAfter : Bool) : Option Layout :=
  if !l.inFlow && !l.keyAllowed then none
  else
    ((l.indent m.column l.tokens.length collection).dropKey?).map fun l =>
      { l.push t with keyAllowed := keyAfter }

def addValue? (l : Layout) (m : Mark) : Option Layout :=
  match l.keyStart with
  | some k =>
    let l := (l.insertAt k.before .key).indent k.mark.column k.before .blockMapping
    some { l.push .value with keyStart := none, keyAllowed := false }
  | none =>
    if l.inFlow then some { l.push .value with keyAllowed := false }
    else if l.keyAllowed then
      some { (l.indent m.column l.tokens.length .blockMapping).push .value with keyAllowed := true }
    else none

def accept? (l : Layout) (m : Mark) (x : Lexeme) : Option Layout :=
  match l.dropAllStale? m with
  | none => none
  | some l =>
    let l := l.unindent (some m.column)
    match x with
    | .streamEnd => (l.unindent none).dropKey?.map fun l => { l.push .streamEnd with keyAllowed := false }
    | .betweenDocuments t =>
      (l.unindent none).dropKey?.map fun l => { l.push t with keyAllowed := false }
    | .openFlow t =>
      (l.saveKey? m).map fun l =>
        { l.push t with keyStart := none, outer := l.keyStart :: l.outer, keyAllowed := true }
    | .closeFlow t =>
      l.dropKey?.map fun l =>
        match l.outer with
        | [] => { l.push t with keyAllowed := false }
        | k :: outer => { l.push t with keyStart := k, outer, keyAllowed := false }
    | .flowEntry => l.dropKey?.map fun l => { l.push .flowEntry with keyAllowed := true }
    | .blockEntry => l.enter? m .blockSequence .blockEntry true
    | .key => l.enter? m .blockMapping .key (!l.inFlow)
    | .value => l.addValue? m
    | .content t => (l.saveKey? m).map fun l => { l.push t with keyAllowed := false }
    | .plainLines t => (l.saveKey? m).map fun l => { l.push t with keyAllowed := true }
    | .blockScalar t => l.dropKey?.map fun l => { l.push t with keyAllowed := true }

def surroundings (l : Layout) : Surroundings :=
  ⟨l.inFlow, l.columns.head?⟩

end Layout

/-- Skips blanks, breaks and comments. Behind a break a block collection may have a key. A tab does
not count as a blank where a key may begin in a block collection. -/
def skipGap (flow keyAllowed inComment : Bool) (m : Mark) (cs : List Char) : Bool × Mark × List Char :=
  match cs with
  | [] => (keyAllowed, m, [])
  | '\r' :: '\n' :: rest => skipGap flow (keyAllowed || !flow) false (m.down 2) rest
  | c :: rest =>
    if isBreak c then skipGap flow (keyAllowed || !flow) false (m.down 1) rest
    else if inComment then skipGap flow keyAllowed true m.next rest
    else if m.column = 0 ∧ c = '\uFEFF' then skipGap flow keyAllowed false m.next rest
    else if c = ' ' ∨ (c = '\t' ∧ (flow ∨ !keyAllowed)) then
      skipGap flow keyAllowed false m.next rest
    else if c = '#' then skipGap flow keyAllowed true m.next rest
    else (keyAllowed, m, c :: rest)

namespace Token

/-- The tokens of a text from a layout on, with at most `fuel` lexemes. -/
def ofCharsFrom? : Nat → Layout → Mark → List Char → Option (List Token)
  | 0, _, _, _ => none
  | fuel + 1, l, m, cs =>
    let (keyAllowed, m, cs) := skipGap l.inFlow l.keyAllowed false m cs
    let l := { l with keyAllowed }
    match cs with
    | [] =>
      let m := if m.column = 0 then m else m.down 0
      (l.accept? m .streamEnd).map fun l => l.tokens.reverse
    | c :: rest =>
      match Lexeme.read? (l.unindent (some m.column)).surroundings m c rest with
      | none => none
      | some x =>
        match l.accept? m x.lexeme with
        | none => none
        | some l => ofCharsFrom? fuel l x.mark x.rest

/-- The tokens of a text. Every lexeme takes a character, so there are at most as many as there are
characters. -/
def ofChars? (cs : List Char) : Option (List Token) :=
  if cs.all isAllowed then ofCharsFrom? (cs.length + 1) .start ⟨0, 0, 0⟩ cs else none

end Token

end SheetLint.Yaml
