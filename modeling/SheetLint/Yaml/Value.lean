import SheetLint.Json
import SheetLint.Yaml.Node

/-!
What YAML nodes mean as JSON values. A plain scalar without a tag is null, a truth value, a number
or a string by its looks; any other scalar is a string unless a tag says what it is.
-/

namespace SheetLint.Yaml

namespace Scalar

def isNull (text : String) : Bool :=
  ["null", "Null", "NULL", "~"].contains text

def bool? (text : String) : Option Bool :=
  if ["true", "True", "TRUE"].contains text then some true
  else if ["false", "False", "FALSE"].contains text then some false
  else none

/-- The text without a plus sign in front. Another sign may not follow it. -/
def dropPlus? (cs : List Char) : Option (List Char) :=
  match cs with
  | '+' :: c :: rest => if c = '+' ∨ c = '-' then none else some (c :: rest)
  | '+' :: [] => some []
  | cs => some cs

def digits? (base : Nat) (ds : List Char) : Option Nat :=
  if ds.isEmpty then none
  else
    ds.foldl
      (fun n d => n.bind fun n => (hexValue? d).bind fun v =>
        if v < base then some (base * n + v) else none)
      (some 0)

def hasNeedlessZero (ds : List Char) : Bool :=
  ds.head? == some '0' && 1 < ds.length && ds.all Char.isDigit

def magnitude? (cs : List Char) : Option Nat :=
  match cs with
  | '0' :: 'x' :: ds => digits? 16 ds
  | '0' :: 'o' :: ds => digits? 8 ds
  | '0' :: 'b' :: ds => digits? 2 ds
  | ds => if hasNeedlessZero ds then none else digits? 10 ds

def integer? (cs : List Char) : Option Int :=
  match cs with
  | '-' :: ds =>
    match magnitude? ds with
    | some n => if fitsBits 128 (-n) then some (-n) else none
    | none => none
  | cs =>
    match (dropPlus? cs).bind magnitude? with
    | some n => if fitsBits 128 n then some n else none
    | none => none

def exponent? (cs : List Char) : Option Int :=
  match cs with
  | [] => some 0
  | _ :: '-' :: ds => (digits? 10 ds).map fun n => -(n : Int)
  | _ :: '+' :: ds => (digits? 10 ds).map fun n => (n : Int)
  | _ :: ds => (digits? 10 ds).map fun n => (n : Int)

/-- The finite number that decimal digits with a point and an exponent spell. Either side of the
point may be empty. -/
def decimal? (cs : List Char) : Option Binary64 :=
  let (negative, cs) := match cs with
    | '-' :: cs => (true, cs)
    | cs => (false, cs)
  let whole := cs.takeWhile Char.isDigit
  let (fraction, rest) := match cs.dropWhile Char.isDigit with
    | '.' :: more => (more.takeWhile Char.isDigit, more.dropWhile Char.isDigit)
    | rest => ([], rest)
  let marked := match rest with
    | [] => true
    | c :: _ => c == 'e' || c == 'E'
  if marked then
    match digits? 10 (whole ++ fraction), exponent? rest with
    | some n, some e => Binary64.ofDecimal? negative n (e - fraction.length)
    | _, _ => none
  else none

/-- The floating-point number that a text means; there is none for infinity and for what is not a
number. -/
def float? (cs : List Char) : Option (Option Binary64) :=
  match dropPlus? cs with
  | none => none
  | some unsigned =>
    if [".inf", ".Inf", ".INF"].contains (String.ofList unsigned)
        ∨ ["-.inf", "-.Inf", "-.INF", ".nan", ".NaN", ".NAN"].contains (String.ofList cs) then
      some none
    else (decimal? unsigned).map some

/-- Whether a text looks like an integer but begins with a needless zero. -/
def looksOctal (cs : List Char) : Bool :=
  match cs with
  | '-' :: ds => hasNeedlessZero ds
  | '+' :: ds => hasNeedlessZero ds
  | ds => hasNeedlessZero ds

def ofInteger? (n : Int) : Option Json :=
  if fitsBits 64 n then some (.number (.integer n)) else none

def ofFloat : Option Binary64 → Json :=
  Json.ofOption fun x => .number (.float x)

/-- What a plain scalar means. An integer too great for 64 bits is refused; one that is greater
still is a floating-point number. -/
def plain? (text : String) : Option Json :=
  let cs := text.toList
  if cs.isEmpty || isNull text then some .null
  else
    match bool? text, integer? cs with
    | some b, _ => some (.bool b)
    | none, some n => ofInteger? n
    | none, none =>
      if looksOctal cs then some (.string text)
      else
        match float? cs with
        | some x => some (ofFloat x)
        | none => some (.string text)

/-- The tags with a meaning of their own begin like this. -/
def commonTag (name : String) : String :=
  "tag:yaml.org,2002:" ++ name

def isLocal (tag : String) : Bool :=
  tag.toList.head? == some '!'

/-- What a scalar means. Tags of the document alone are refused. -/
def toJson? (tag : Option String) (isPlain : Bool) (text : String) : Option Json :=
  match tag with
  | none => if isPlain then plain? text else some (.string text)
  | some tag =>
    if isLocal tag then none
    else if tag = commonTag "bool" then (bool? text).map .bool
    else if tag = commonTag "int" then (integer? text.toList).bind ofInteger?
    else if tag = commonTag "float" then (float? text.toList).map ofFloat
    else if tag = commonTag "null" then (if isNull text then some .null else none)
    else some (.string text)

end Scalar

namespace Document

/-- A document may follow this many aliases for each of its events. -/
def aliasesPerEvent : Nat := 100

def maxDepth : Nat := 128

def maxAliases (d : Document) : Nat :=
  aliasesPerEvent * (d.root.map Node.events).getD 1

/-- The node that a node stands for, and the number of aliases that may still be followed. -/
def follow? (d : Document) (aliases : Nat) : Node → Option (Node × Nat)
  | .reference n =>
    match aliases with
    | 0 => none
    | aliases + 1 => ((d.anchored.find? (·.1 = n)).map (·.2)).map fun node => (node, aliases)
  | node => some (node, aliases)

def keyOf? (d : Document) (aliases : Nat) (n : Node) : Option (String × Nat) :=
  match d.follow? aliases n with
  | some (.scalar _ _ text, aliases) => some (text, aliases)
  | _ => none

def itemsOf? (value? : Nat → Node → Option (Json × Nat)) (aliases : Nat) :
    List Node → Option (List Json × Nat)
  | [] => some ([], aliases)
  | n :: ns =>
    match value? aliases n with
    | none => none
    | some (j, aliases) => (itemsOf? value? aliases ns).map fun r => (j :: r.1, r.2)

def membersOf? (d : Document) (value? : Nat → Node → Option (Json × Nat)) (aliases : Nat) :
    List (Node × Node) → Option (List (String × Json) × Nat)
  | [] => some ([], aliases)
  | p :: ps =>
    match d.keyOf? aliases p.1 with
    | none => none
    | some (name, aliases) =>
      match value? aliases p.2 with
      | none => none
      | some (j, aliases) =>
        (membersOf? d value? aliases ps).map fun r => ((name, j) :: r.1, r.2)

def isCommon (tag : Option String) : Bool :=
  match tag with
  | none => true
  | some tag => !Scalar.isLocal tag

/-- The value of a node in which collections are nested at most `depth` deep, when a number of
aliases may be followed. -/
def value? (d : Document) : Nat → Nat → Node → Option (Json × Nat)
  | depth, aliases, n =>
    match d.follow? aliases n, depth with
    | some (.scalar tag plain text, aliases), _ =>
      (Scalar.toJson? tag plain text).map fun j => (j, aliases)
    | some (.sequence tag items, aliases), depth + 1 =>
      if isCommon tag then
        (itemsOf? (d.value? depth) aliases items).map fun r => (.array r.1, r.2)
      else none
    | some (.mapping tag pairs, aliases), depth + 1 =>
      if isCommon tag then
        (membersOf? d (d.value? depth) aliases pairs).map fun r => (.object (Entries.ofList r.1), r.2)
      else none
    | _, _ => none

/-- The entries of a node that is a mapping, whatever its tag, or that is left out. -/
def entriesOf? (d : Document) (n : Node) : Option (Entries Json) :=
  match d.follow? d.maxAliases n with
  | some (.mapping _ pairs, aliases) =>
    (membersOf? d (d.value? (maxDepth - 2)) aliases pairs).map fun r => Entries.ofList r.1
  | some (.scalar _ true "", _) => some []
  | _ => none

/-- The pairs of the mapping that is the whole document. A document without content has none. -/
def pairs? (d : Document) : Option (List (String × Node)) :=
  match d.root with
  | none => some []
  | some (.scalar _ true "") => some []
  | some (.mapping _ pairs) =>
    pairs.mapM fun p => (d.keyOf? d.maxAliases p.1).map fun k => (k.1, p.2)
  | some _ => none

end Document

end SheetLint.Yaml
