import SheetLint.Json
import SheetLint.Number.Shortest

/-!
JSON texts of values: `compact` puts everything on one line, `pretty` gives each item and each
member a line of its own, indented by two spaces per level.
-/

namespace SheetLint.Json

def hexDigits (n : Nat) : List Char :=
  [Nat.digitChar (n / 16), Nat.digitChar (n % 16)]

def escape (c : Char) : List Char :=
  if c = '"' then ['\\', '"']
  else if c = '\\' then ['\\', '\\']
  else if c = '\n' then ['\\', 'n']
  else if c = '\r' then ['\\', 'r']
  else if c = '\t' then ['\\', 't']
  else if c = '\x08' then ['\\', 'b']
  else if c = '\x0c' then ['\\', 'f']
  else if c.toNat < 0x20 then ['\\', 'u', '0', '0'] ++ hexDigits c.toNat
  else [c]

def quote (s : String) : List Char :=
  '"' :: (s.toList.flatMap escape ++ ['"'])

def Number.text : Number → List Char
  | .integer n => (if n < 0 then ['-'] else []) ++ Nat.toDigits 10 n.natAbs
  | .float x => x.text

def atomText (text : String) : List Char :=
  text.toList

mutual

def compact : Json → List Char
  | .null => atomText "null"
  | .bool b => atomText (if b then "true" else "false")
  | .number n => n.text
  | .string s => quote s
  | .array [] => ['[', ']']
  | .array (x :: xs) => '[' :: (compact x ++ compactItems xs)
  | .object [] => ['{', '}']
  | .object (m :: ms) => '{' :: (quote m.1 ++ ':' :: (compact m.2 ++ compactMembers ms))

def compactItems : List Json → List Char
  | [] => [']']
  | x :: xs => ',' :: (compact x ++ compactItems xs)

def compactMembers : List (String × Json) → List Char
  | [] => ['}']
  | m :: ms => ',' :: (quote m.1 ++ ':' :: (compact m.2 ++ compactMembers ms))

end

def newline (level : Nat) : List Char :=
  '\n' :: List.replicate (2 * level) ' '

mutual

/-- The text of a value that stands at a level, on several lines if it has parts. -/
def prettyAt (level : Nat) : Json → List Char
  | .null => atomText "null"
  | .bool b => atomText (if b then "true" else "false")
  | .number n => n.text
  | .string s => quote s
  | .array [] => ['[', ']']
  | .array (x :: xs) =>
    '[' :: (newline (level + 1) ++ prettyAt (level + 1) x ++ prettyItems level xs)
  | .object [] => ['{', '}']
  | .object (m :: ms) =>
    '{' :: (newline (level + 1) ++ quote m.1 ++ ':' :: ' ' :: prettyAt (level + 1) m.2
      ++ prettyMembers level ms)

def prettyItems (level : Nat) : List Json → List Char
  | [] => newline level ++ [']']
  | x :: xs => ',' :: (newline (level + 1) ++ prettyAt (level + 1) x ++ prettyItems level xs)

def prettyMembers (level : Nat) : List (String × Json) → List Char
  | [] => newline level ++ ['}']
  | m :: ms =>
    ',' :: (newline (level + 1) ++ quote m.1 ++ ':' :: ' ' :: prettyAt (level + 1) m.2
      ++ prettyMembers level ms)

end

def pretty (j : Json) : List Char :=
  prettyAt 0 j

def compress (j : Json) : String :=
  String.ofList j.compact

end SheetLint.Json
