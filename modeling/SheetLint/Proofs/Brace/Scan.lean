import SheetLint.Brace.Flavor
import SheetLint.Position

/-!
A flat scan of a style sheet with braces. The scan looks at one character after the other, with the
next one in view, and never goes back. Its state is the construct that it stands in, the number of
open parentheses and the text of the statement so far; what it gives is the sequence of comments,
statements, openings and closings that it passes.

`Accepted` says which sequences a well-formed sheet may have.
-/

namespace SheetLint.Brace.Scan

inductive Mode where
  | plain
  | string (quote : Char)
  | escape (quote : Char)
  /-- Before the star that belongs to the opening of a comment. -/
  | opening
  | comment
  /-- Before the slash that belongs to the closing of a comment. -/
  | closing
  | line
  | interpolation (depth : Nat)
deriving DecidableEq, Repr

/-- What a scan passes. A statement is the text that ends at `;`, at a closing brace or at the end
of the sheet; comments before its first character stand on their own. -/
inductive Item where
  | comment (slash : Cell) (inline : Bool)
  | statement (text : List Cell) (ending : Option Cell)
  | opening (text : List Cell) (brace : Cell)
  | closing (brace : Cell)
deriving DecidableEq, Repr

structure State where
  mode : Mode
  parens : Nat
  text : List Cell
deriving DecidableEq, Repr

namespace State

abbrev start : State := ⟨.plain, 0, []⟩

def take (s : State) (c : Cell) (mode : Mode) : State :=
  ⟨mode, s.parens, s.text ++ [c]⟩

def keep (s : State) (c : Cell) (mode : Mode) : State :=
  ⟨mode, s.parens, if s.text = [] then [] else s.text ++ [c]⟩

def ended (s : State) (ending : Option Cell) : List Item :=
  if s.text = [] then [] else [.statement s.text ending]

def commented (s : State) (slash : Cell) (inline : Bool) : List Item :=
  if s.text = [] then [.comment slash inline] else []

def stepPlain (flavor : Flavor) (s : State) (c : Cell) (next : Option Char) : List Item × State :=
  if c.char = '"' ∨ c.char = '\'' then ([], s.take c (.string c.char))
  else if c.char = '/' ∧ next = some '*' then (s.commented c false, s.keep c .opening)
  else if c.char = '/' ∧ s.parens = 0 ∧ flavor.lineComments ∧ next = some '/' then
    (s.commented c true, { s with mode := .line })
  else if flavor.interpolation = some c.char ∧ next = some '{' then
    ([], s.take c (.interpolation 0))
  else if c.char = '(' then ([], { s.take c .plain with parens := s.parens + 1 })
  else if c.char = ')' then ([], { s.take c .plain with parens := s.parens - 1 })
  else if s.parens = 0 ∧ c.char = ';' then (s.ended (some c), start)
  else if s.parens = 0 ∧ c.char = '{' then ([.opening s.text c], start)
  else if s.parens = 0 ∧ c.char = '}' then (s.ended (some c) ++ [.closing c], start)
  else if c.isBlank then ([], s.keep c .plain)
  else ([], s.take c .plain)

/-- One character, with the next one in view: what it completes and the state after it. -/
def step (flavor : Flavor) (s : State) (c : Cell) (next : Option Char) :
    Option (List Item × State) :=
  match s.mode with
  | .plain => some (s.stepPlain flavor c next)
  | .string quote =>
    if c.char = '\n' then none
    else if c.char = '\\' then some ([], s.take c (.escape quote))
    else if c.char = quote then some ([], s.take c .plain)
    else some ([], s.take c (.string quote))
  | .escape quote => some ([], s.take c (.string quote))
  | .opening => some ([], s.keep c .comment)
  | .comment =>
    some ([], s.keep c (if c.char = '*' ∧ next = some '/' then .closing else .comment))
  | .closing => some ([], s.keep c .plain)
  | .line => some ([], { s with mode := if next = some '\n' then .plain else .line })
  | .interpolation depth =>
    if c.char = '{' then some ([], s.take c (.interpolation (depth + 1)))
    else if c.char = '}' then
      some ([], s.take c (if depth ≤ 1 then .plain else .interpolation (depth - 1)))
    else some ([], s.take c (.interpolation depth))

def finish (s : State) : Option (List Item) :=
  match s.mode with
  | .plain | .line => some (s.ended none)
  | _ => none

end State

def scan (flavor : Flavor) (s : State) : List Cell → Option (List Item)
  | [] => s.finish
  | c :: rest =>
    match s.step flavor c (rest.head?.map Cell.char) with
    | none => none
    | some (passed, s) => (scan flavor s rest).map (passed ++ ·)

def items (flavor : Flavor) (text : List Char) : Option (List Item) :=
  scan flavor .start (Cell.ofChars .start text)

/-! ## Well-formed sheets -/

def openings (items : List Item) : Nat :=
  items.countP fun | .opening _ _ => true | _ => false

def closings (items : List Item) : Nat :=
  items.countP fun | .closing _ => true | _ => false

/-- Whether a text may stand as a statement without a block: it begins with `@`, or it has a colon
anywhere, or it begins as a mixin call where there are mixins. -/
def IsStatement (flavor : Flavor) (text : List Cell) : Prop :=
  text.head?.map Cell.char = some '@' ∨ (∃ c ∈ text, c.char = ':') ∨
    flavor.mixins = true ∧ (text.head?.map Cell.char = some '.' ∨
      text.head?.map Cell.char = some '#')

/-- The conditions on the items of a well-formed sheet whose blocks are nested within a limit. -/
structure Accepted (flavor : Flavor) (limit : Nat) (items : List Item) : Prop where
  closings_le : ∀ passed, passed <+: items → closings passed ≤ openings passed
  openings_le : ∀ passed, passed <+: items → openings passed ≤ closings passed + limit
  balanced : openings items = closings items
  statements : ∀ text ending, .statement text ending ∈ items → IsStatement flavor text

end SheetLint.Brace.Scan
