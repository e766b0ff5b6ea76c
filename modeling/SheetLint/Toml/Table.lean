import SheetLint.Toml.Value

/-!
The tables of a TOML document while it is read. Every table remembers how it came to be, because
that decides how it may still grow: a table with a header gets its entries under that header only,
a table that a dotted key made takes further dotted keys, and a table that was only passed through
on the way to another may still get a header of its own.
-/

namespace SheetLint

/-- Changes the entry of a name, or adds one at the end; `f` may refuse. -/
def Entries.alter? {α : Type} (entries : Entries α) (name : String) (f : Option α → Option α) :
    Option (Entries α) :=
  match entries with
  | [] => (f none).map fun a => [(name, a)]
  | e :: rest =>
    if e.1 = name then (f (some e.2)).map fun a => (name, a) :: rest
    else (alter? rest name f).map (e :: ·)

namespace Toml

/-- How a table came to be. -/
inductive Origin where
  /-- It has a header of its own. -/
  | header
  /-- It lies on the way to a table with a header. -/
  | passage
  /-- A dotted key leads through it. -/
  | dotted
deriving DecidableEq, Repr

inductive Item where
  | value (v : Value)
  | table (origin : Origin) (entries : List (String × Item))
  /-- Tables that share a header, last first. -/
  | tables (all : List (List (String × Item)))

namespace Item

mutual

def toValue : Item → Value
  | value v => v
  | table _ entries => .table (entryValues entries)
  | tables all => .array (tableValues [] all)

def entryValues : List (String × Item) → Entries Value
  | [] => []
  | e :: es => (e.1, toValue e.2) :: entryValues es

/-- The values of tables that share a header, in front of those already converted. -/
def tableValues (after : List Value) : List (List (String × Item)) → List Value
  | [] => after
  | t :: ts => tableValues (.table (entryValues t) :: after) ts

end

end Item

namespace Table

/-- Changes the table at the end of a path. Tables that are missing on the way are made. Dotted
keys do not lead into tables with a header. -/
def change? (byDots : Bool) (f : Origin → Entries Item → Option (Entries Item)) (origin : Origin) :
    List String → Entries Item → Option (Entries Item)
  | [], entries => f origin entries
  | name :: path, entries =>
    entries.alter? name fun
      | none =>
        let origin := if byDots then .dotted else .passage
        (change? byDots f origin path []).map (.table origin)
      | some (.table origin inner) =>
        if byDots ∧ origin = .header then none
        else (change? byDots f origin path inner).map (.table origin)
      | some (.tables (last :: before)) =>
        (change? byDots f .header path last).map fun last => .tables (last :: before)
      | some _ => none

def add? (entries : Entries Item) (name : String) (v : Value) : Option (Entries Item) :=
  entries.alter? name fun
    | none => some (.value v)
    | some _ => none

/-- Gives a key with the parts `path` and `name` a value. A dotted key adds to tables that dotted
keys have made. -/
def assign? (entries : Entries Item) (path : List String) (name : String) (v : Value) :
    Option (Entries Item) :=
  change? true
    (fun origin inner => if path.isEmpty ∨ origin = .dotted then add? inner name v else none)
    .header path entries

/-- Opens the table of a header. One that was only passed through so far moves to the end. -/
def openTable? (entries : Entries Item) (name : String) : Option (Entries Item) :=
  match entries.get? name with
  | none => some (entries ++ [(name, .table .header [])])
  | some (.table .passage inner) =>
    some (entries.filter (·.1 ≠ name) ++ [(name, .table .header inner)])
  | some _ => none

/-- Opens one more table of a header that several tables share. -/
def openNext? (entries : Entries Item) (name : String) : Option (Entries Item) :=
  entries.alter? name fun
    | none => some (.tables [[]])
    | some (.tables all) => some (.tables ([] :: all))
    | some _ => none

end Table

end Toml

end SheetLint
