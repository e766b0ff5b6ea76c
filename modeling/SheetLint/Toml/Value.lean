import SheetLint.Json

namespace SheetLint.Toml

inductive Value where
  | string (s : String)
  | integer (n : Int)
  /-- A floating-point number; there is none for infinity and for what is not a number. -/
  | float (x : Option Binary64)
  /-- A floating-point number whose digits are too great for any. -/
  | overflow
  | boolean (b : Bool)
  /-- A date, a time or both, as it is written out. -/
  | moment (text : String)
  | array (items : List Value)
  | table (entries : List (String × Value))
deriving Repr

namespace Value

/-- The name of the one member of the object that stands for a date or a time. -/
def momentName : String := "$__toml_private_datetime"

mutual

/-- The JSON value that stands for a value, unless a number is too great. Numbers that are not
finite become null. -/
def toJson? : Value → Option Json
  | string s => some (.string s)
  | integer n => if fitsBits 64 n then some (.number (.integer n)) else none
  | float none => some .null
  | float (some x) => some (.number (.float x))
  | overflow => none
  | boolean b => some (.bool b)
  | moment text => some (.object [(momentName, .string text)])
  | array items => (itemsToJson? items).map .array
  | table entries => (entriesToJson? entries).map .object

def itemsToJson? : List Value → Option (List Json)
  | [] => some []
  | v :: vs =>
    match toJson? v with
    | none => none
    | some j => (itemsToJson? vs).map (j :: ·)

def entriesToJson? : List (String × Value) → Option (Entries Json)
  | [] => some []
  | e :: es =>
    match toJson? e.2 with
    | none => none
    | some j => (entriesToJson? es).map ((e.1, j) :: ·)

end

mutual

/-- Whether a value can be passed over: its integers fit 128 bits, and no number overflows. -/
def fits : Value → Bool
  | integer n => fitsBits 128 n
  | overflow => false
  | array items => itemsFit items
  | table entries => entriesFit entries
  | _ => true

def itemsFit : List Value → Bool
  | [] => true
  | v :: vs => fits v && itemsFit vs

def entriesFit : List (String × Value) → Bool
  | [] => true
  | e :: es => fits e.2 && entriesFit es

end

end Value

end SheetLint.Toml
