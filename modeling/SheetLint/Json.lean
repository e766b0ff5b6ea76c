import SheetLint.Number.Binary64
import SheetLint.Number.Range

/-!
JSON values. The members of an object keep the order in which they were first written, and a name
that is written again replaces the value in place.
-/

namespace SheetLint

/-- A number: an integer that fits 64 bits, or a floating-point number. -/
inductive Json.Number where
  | integer (n : Int)
  | float (x : Binary64)
deriving DecidableEq, Repr

inductive Json where
  | null
  | bool (b : Bool)
  | number (n : Json.Number)
  | string (s : String)
  | array (items : List Json)
  | object (members : List (String × Json))
deriving Repr

namespace Json

def ofNat (n : Nat) : Json := .number (.integer n)

def ofOption {α : Type} (f : α → Json) : Option α → Json
  | none => .null
  | some a => f a

end Json

/-- Entries with names, in the order in which each name was first inserted. -/
abbrev Entries (α : Type) := List (String × α)

namespace Entries

variable {α : Type}

/-- Sets the entry of a name. A new name goes to the end, a known one keeps its place. -/
def insert (entries : Entries α) (name : String) (value : α) : Entries α :=
  match entries with
  | [] => [(name, value)]
  | e :: rest => if e.1 = name then (name, value) :: rest else e :: insert rest name value

def get? (entries : Entries α) (name : String) : Option α :=
  (entries.find? (·.1 = name)).map (·.2)

def ofList (steps : List (String × α)) : Entries α :=
  steps.foldl (fun entries s => insert entries s.1 s.2) []

end Entries

end SheetLint
