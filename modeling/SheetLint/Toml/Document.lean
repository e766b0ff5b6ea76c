import SheetLint.Text.Blank
import SheetLint.Toml.Table
import SheetLint.Toml.Token

/-!
Reading TOML documents. A document is a row of statements, each of which opens a table or gives a
key a value; `Statement.ofText?` cuts a text into them, with a stack of open arrays and inline
tables, and `entriesOfText?` carries them out.
-/

namespace SheetLint.Toml

inductive Statement where
  | table (path : List String) (name : String)
  | nextTable (path : List String) (name : String)
  | assign (path : List String) (name : String) (v : Value)

/-- The place that a value fills. Paths and contents so far are last first. -/
inductive Place where
  | statement (path : List String) (name : String)
  | item (items : List Value) (outer : Place)
  | entry (entries : Entries Item) (path : List String) (name : String) (outer : Place)

/-- How many arrays and inline tables a place is inside of. -/
def Place.depth : Place → Nat
  | statement _ _ => 0
  | item _ outer => outer.depth + 1
  | entry _ _ _ outer => outer.depth + 1

def maxDepth : Nat := 80

inductive KeyUse where
  | table
  | nextTable
  | statement
  | entry (entries : Entries Item) (outer : Place)

inductive State where
  | line
  | lineEnd
  | key (use : KeyUse) (path : List String)
  | afterKey (use : KeyUse) (path : List String) (name : String)
  | value (place : Place)
  | afterItem (items : List Value) (outer : Place)
  | entry (entries : Entries Item) (outer : Place)
  | afterEntry (entries : Entries Item) (outer : Place)

/-- A state, and the statement that has just been completed. -/
abbrev Step := State × Option Statement

def Place.put? (v : Value) : Place → Option Step
  | statement path name => some (.lineEnd, some (.assign path.reverse name v))
  | item items outer => some (.afterItem (v :: items) outer, none)
  | entry entries path name outer =>
    (Table.assign? entries path.reverse name v).map fun entries => (.afterEntry entries outer, none)

def Place.open? (place : Place) (state : State) : Option Step :=
  if place.depth < maxDepth then some (state, none) else none

namespace State

def endKey? (path : List String) (name : String) : KeyUse → Token → Option Step
  | .table, .closeArray => some (lineEnd, some (.table path.reverse name))
  | .nextTable, .closeArrays => some (lineEnd, some (.nextTable path.reverse name))
  | .statement, .equals => some (value (.statement path name), none)
  | .entry entries outer, .equals => some (value (.entry entries path name outer), none)
  | _, _ => none

def next? : State → Token → Option Step
  | line, .newline => some (line, none)
  | line, .key name => some (afterKey .statement [] name, none)
  | line, .openArray => some (key .table [], none)
  | line, .openArrays => some (key .nextTable [], none)
  | lineEnd, .newline => some (line, none)
  | key use path, .key name => some (afterKey use path name, none)
  | afterKey use path name, .dot => some (key use (name :: path), none)
  | afterKey use path name, t => endKey? path name use t
  | value place, .scalar v => place.put? v
  | value place, .openArray => place.open? (value (.item [] place))
  | value place, .openTable => place.open? (entry [] place)
  | value (.item items outer), .closeArray => outer.put? (.array items.reverse)
  | value (.item items outer), .newline => some (value (.item items outer), none)
  | afterItem items outer, .comma => some (value (.item items outer), none)
  | afterItem items outer, .closeArray => outer.put? (.array items.reverse)
  | afterItem items outer, .newline => some (afterItem items outer, none)
  | entry entries outer, .key name => some (afterKey (.entry entries outer) [] name, none)
  | entry entries outer, .closeTable => outer.put? (.table (Item.entryValues entries))
  | entry entries outer, .newline => some (entry entries outer, none)
  | afterEntry entries outer, .comma => some (entry entries outer, none)
  | afterEntry entries outer, .closeTable => outer.put? (.table (Item.entryValues entries))
  | afterEntry entries outer, .newline => some (afterEntry entries outer, none)
  | _, _ => none

/-- Reads the token that starts with the character `c`, by the rules for what may come next. -/
def token? (s : State) (c : Char) (rest : List Char) : Option (Token × List Char) :=
  match s with
  | value _ => Token.inValues? c rest
  | afterItem _ _ => Token.inValues? c rest
  | _ => Token.inKeys? c rest

theorem token?_length {s : State} {c : Char} {rest : List Char} {r : Token × List Char}
    (h : s.token? c rest = some r) : r.2.length ≤ rest.length := by
  unfold token? at h
  split at h
  · exact Token.inValues?_length h
  · exact Token.inValues?_length h
  · exact Token.inKeys?_length h

def mayEnd : State → Bool
  | line => true
  | lineEnd => true
  | _ => false

end State

namespace Statement

/-- The statements of a text behind those already read, which are last first. -/
def ofCharsFrom? (before : List Statement) (s : State) (cs : List Char) : Option (List Statement) :=
  match _h : Token.skipBlanks cs with
  | [] => if s.mayEnd then some before.reverse else none
  | c :: rest =>
    match _h : s.token? c rest with
    | none => none
    | some (token, rest) =>
      match s.next? token with
      | none => none
      | some (s, statement) => ofCharsFrom? (statement.toList ++ before) s rest
termination_by cs.length
decreasing_by
  have := State.token?_length (by assumption)
  have skip := Token.skipBlanks_length cs
  simp_all; omega

def ofText? (text : String) : Option (List Statement) :=
  ofCharsFrom? [] .line (Text.dropByteOrderMark text.toList)

end Statement

/-- A document while its statements are carried out. -/
structure Document where
  root : Entries Item
  /-- The path to the table whose entries come next. -/
  current : List String

namespace Document

def run? (d : Document) : Statement → Option Document
  | .table path name =>
    (Table.change? false (fun _ entries => Table.openTable? entries name) .header path d.root).map
      fun root => ⟨root, path ++ [name]⟩
  | .nextTable path name =>
    (Table.change? false (fun _ entries => Table.openNext? entries name) .header path d.root).map
      fun root => ⟨root, path ++ [name]⟩
  | .assign path name v =>
    (Table.change? false (fun _ entries => Table.assign? entries path name v) .header d.current
      d.root).map fun root => { d with root }

def runAll? (d : Document) : List Statement → Option Document
  | [] => some d
  | s :: ss =>
    match d.run? s with
    | none => none
    | some d => runAll? d ss

end Document

def entriesOfText? (text : String) : Option (Entries Value) :=
  match Statement.ofText? text with
  | none => none
  | some statements =>
    (Document.runAll? ⟨[], []⟩ statements).map fun d => Item.entryValues d.root

end SheetLint.Toml
