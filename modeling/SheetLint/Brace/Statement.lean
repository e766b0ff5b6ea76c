import SheetLint.Important
import SheetLint.Text.Letter
import SheetLint.Brace.Piece

/-!
What a collected statement stands for. Before a block it is a prelude. Without a block it is an
at-rule, a declaration or a mixin call, and anything else is refused as an unknown word.
-/

namespace SheetLint.Brace

def isNameCell (c : Cell) : Bool :=
  !c.isBlank && c.char != '(' && c.char != '{'

def atRulePrelude (text : List Cell) : Prelude :=
  .atRule (Cell.text (text.takeWhile isNameCell))
    (Cell.text (Text.trimWhile Cell.isBlank (text.dropWhile isNameCell)))

/-- The prelude that the text before a block makes. -/
def preludeOf : List Cell → Prelude
  | [] => .selector ""
  | c :: rest => if c.char = '@' then atRulePrelude rest else .selector (Cell.text (c :: rest))

def isVariableCell (c : Cell) : Bool :=
  Text.isAlphanumeric c.char || c.char == '-' || c.char == '_'

/-- Whether the first cell that is not blank is a colon. -/
def colonFollows (cells : List Cell) : Bool :=
  startsWith ':' (cells.dropWhile Cell.isBlank)

/-- Whether a text that begins with `@` goes on, after the `@`, as the name of a variable and a
colon, or as one interpolation, perhaps the rest of a name, and a colon. -/
def isVariableText (rest : List Cell) : Bool :=
  if startsWith '{' rest then
    match rest.dropWhile (·.char != '}') with
    | [] => false
    | _ :: after => colonFollows (after.dropWhile isVariableCell)
  else
    !(rest.takeWhile isVariableCell).isEmpty && colonFollows (rest.dropWhile isVariableCell)

/-- The declaration that a text makes: its first colon ends the property. An empty value counts as
standing just after the colon. -/
def declarationOf (first : Cell) (rest : List Cell) : Declaration :=
  let text := first :: rest
  let fromColon := text.dropWhile (·.char != ':')
  let value := Text.trimWhile Cell.isBlank (fromColon.drop 1)
  let valueStart :=
    match value, fromColon with
    | c :: _, _ => c.pos
    | [], colon :: _ => ⟨colon.pos.line, colon.pos.column + 1⟩
    | [], [] => first.pos
  let (value, important) := splitImportant (Cell.chars value)
  { prop := Cell.text (Text.trimWhile Cell.isBlank (text.takeWhile (·.char != ':')))
    value := String.ofList value
    important
    start := first.pos
    valueStart }

/-- The node that a statement without a block makes; an empty statement makes none. -/
def nodeOf (flavor : Flavor) : List Cell → Except ParseError (Option Node)
  | [] => .ok none
  | c :: rest =>
    if c.char = '@' then
      if flavor.mixins && isVariableText rest then .ok (some (.declaration (declarationOf c rest)))
      else .ok (some (.statement (atRulePrelude rest) c.pos))
    else if (c :: rest).any (·.char == ':') then .ok (some (.declaration (declarationOf c rest)))
    else if flavor.mixins && (c.char == '.' || c.char == '#') then
      .ok (some (.statement (.selector (Cell.text (c :: rest))) c.pos))
    else .error ⟨.unknownWord, c.pos⟩

end SheetLint.Brace
