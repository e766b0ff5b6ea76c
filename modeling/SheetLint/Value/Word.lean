import SheetLint.Text.Blank

/-!
The words of a value: the longest runs of characters that are no separators and stand outside of
strings. A run just before an opening parenthesis names a function and is no word, and so are the
runs among the arguments of the functions that are to be skipped.
-/

namespace SheetLint

structure Word where
  offset : Nat
  text : String
deriving DecidableEq, Repr

namespace Value

def isSeparator (c : Char) : Bool :=
  Text.isBlank c || c == ',' || c == '/' || c == '(' || c == ')' || c == '"' || c == '\''

inductive Item where
  | run (word : Word)
  | opening
  | closing
  | gap
deriving DecidableEq, Repr

/-- Where the reading of a value stands: in a run that began at an offset, whose characters are
given last first, or in a string. -/
inductive Mode where
  | run (start : Nat) (chars : List Char)
  | string (quote : Char) (escaped : Bool)
deriving DecidableEq, Repr

def endRun (start : Nat) (chars : List Char) : List Item :=
  if chars.isEmpty then [] else [.run ⟨start, String.ofList chars.reverse⟩]

def itemOf (c : Char) : Item :=
  if c = '(' then .opening else if c = ')' then .closing else .gap

/-- The items of a value from the byte at an offset on. -/
def itemsFrom (offset : Nat) : Mode → List Char → List Item
  | .run start chars, [] => endRun start chars
  | .string _ _, [] => []
  | .run start chars, c :: cs =>
    let next := offset + c.utf8Size
    if isSeparator c then
      let mode : Mode := if c = '"' ∨ c = '\'' then .string c false else .run next []
      endRun start chars ++ itemOf c :: itemsFrom next mode cs
    else itemsFrom next (.run start (c :: chars)) cs
  | .string quote escaped, c :: cs =>
    let next := offset + c.utf8Size
    if escaped then itemsFrom next (.string quote false) cs
    else if c = '\\' then itemsFrom next (.string quote true) cs
    else if c = quote then itemsFrom next (.run next []) cs
    else itemsFrom next (.string quote false) cs

def items (value : String) : List Item :=
  itemsFrom 0 (.run 0 []) value.toList

def isSkipped (skip : List String) (functions : List String) : Bool :=
  functions.any fun f => skip.any (Text.eqIgnoringCase f)

/-- The words among items that stand inside the arguments of the given functions, innermost first.
A closing parenthesis ends the arguments of the innermost function, if there is one. -/
def wordsIn (skip : List String) : List String → List Item → List Word
  | _, [] => []
  | functions, .run w :: .opening :: rest => wordsIn skip (w.text :: functions) rest
  | functions, .run w :: rest =>
    if isSkipped skip functions then wordsIn skip functions rest
    else w :: wordsIn skip functions rest
  | functions, .opening :: rest => wordsIn skip ("" :: functions) rest
  | functions, .closing :: rest => wordsIn skip functions.tail rest
  | functions, .gap :: rest => wordsIn skip functions rest

/-- The words of a value outside of the arguments of the functions named in `skip`. -/
def words (value : String) (skip : List String) : List Word :=
  wordsIn skip [] (items value)

end Value

end SheetLint
