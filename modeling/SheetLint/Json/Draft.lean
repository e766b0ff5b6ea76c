import SheetLint.Json.Token

/-!
Reading JSON texts. A draft is what a text writes down: members with equal names stay apart, and
numbers and strings may lack a value. `Draft.ofTokens?` builds it from the tokens with a stack of
open arrays and objects, and `Draft.settle?` gives the value that it means.
-/

namespace SheetLint.Json

/-- A JSON text as written. -/
inductive Draft where
  | null
  | bool (b : Bool)
  | number (n : Option Number)
  | string (s : Option String)
  | array (items : List Draft)
  | object (members : List (Option String × Draft))
deriving Repr

namespace Draft

/-- An array or object that is still open, with its contents so far, last first. -/
inductive Frame where
  | array (items : List Draft)
  | object (members : List (Option String × Draft)) (name : Option String)

inductive State where
  /-- A value, or the end of the array if one has just been opened. -/
  | value (fresh : Bool) (stack : List Frame)
  /-- The name of a member, or the end of the object if one has just been opened. -/
  | key (fresh : Bool) (members : List (Option String × Draft)) (stack : List Frame)
  /-- The colon after a name. -/
  | colon (members : List (Option String × Draft)) (name : Option String) (stack : List Frame)
  /-- A comma or the end of what is open. -/
  | after (stack : List Frame)
  | done (draft : Draft)

def State.put (d : Draft) : List Frame → State
  | [] => .done d
  | .array items :: stack => .after (.array (d :: items) :: stack)
  | .object members name :: stack => .after (.object ((name, d) :: members) name :: stack)

def State.next? (s : State) (t : Token) : Option State :=
  match s, t with
  | .value _ stack, .null => some (.put .null stack)
  | .value _ stack, .bool b => some (.put (.bool b) stack)
  | .value _ stack, .number n => some (.put (.number n) stack)
  | .value _ stack, .string s => some (.put (.string s) stack)
  | .value _ stack, .openArray => some (.value true (.array [] :: stack))
  | .value _ stack, .openObject => some (.key true [] stack)
  | .value true (.array items :: stack), .closeArray => some (.put (.array items.reverse) stack)
  | .key _ members stack, .string s => some (.colon members s stack)
  | .key true members stack, .closeObject => some (.put (.object members.reverse) stack)
  | .colon members name stack, .colon => some (.value false (.object members name :: stack))
  | .after (.array items :: stack), .comma => some (.value false (.array items :: stack))
  | .after (.array items :: stack), .closeArray => some (.put (.array items.reverse) stack)
  | .after (.object members _ :: stack), .comma => some (.key false members stack)
  | .after (.object members _ :: stack), .closeObject =>
    some (.put (.object members.reverse) stack)
  | _, _ => none

/-- The draft that a row of tokens writes down, from a given state on. -/
def ofTokensFrom? : State → List Token → Option Draft
  | .done d, [] => some d
  | _, [] => none
  | s, t :: ts =>
    match s.next? t with
    | none => none
    | some s => ofTokensFrom? s ts

def ofTokens? (ts : List Token) : Option Draft :=
  ofTokensFrom? (.value false []) ts

def ofChars? (cs : List Char) : Option Draft :=
  (Token.tokens? cs).bind ofTokens?

mutual

/-- The value that a draft means, if all its parts have one and arrays and objects are nested less
than `depth` deep. Of the members with one name the last counts, in the place of the first. -/
def settle? (depth : Nat) : Draft → Option Json
  | .null => some .null
  | .bool b => some (.bool b)
  | .number n => n.map .number
  | .string s => s.map .string
  | .array items => if depth ≤ 1 then none else (settleItems? (depth - 1) items).map .array
  | .object members =>
    if depth ≤ 1 then none
    else (settleMembers? (depth - 1) members).map fun ms => .object (Entries.ofList ms)

def settleItems? (depth : Nat) : List Draft → Option (List Json)
  | [] => some []
  | d :: ds =>
    match settle? depth d with
    | none => none
    | some j => (settleItems? depth ds).map (j :: ·)

def settleMembers? (depth : Nat) : List (Option String × Draft) → Option (List (String × Json))
  | [] => some []
  | m :: ms =>
    match m.1, settle? depth m.2 with
    | some name, some j => (settleMembers? depth ms).map ((name, j) :: ·)
    | _, _ => none

end

end Draft

/-- Arrays and objects nested as deep as this are refused. -/
def maxDepth : Nat := 128

def ofText? (text : String) : Option Json :=
  (Draft.ofChars? text.toList).bind (Draft.settle? maxDepth)

end SheetLint.Json
