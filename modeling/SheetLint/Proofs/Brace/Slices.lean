import SheetLint.Brace.Statement
import SheetLint.Proofs.Slice

namespace SheetLint.Brace

def isVariable? (text : List Cell) : Option Bool := do
  -- The name begins behind the `@`, or behind the interpolation that follows it.
  let start ←
    if text[1]?.any (·.char == '{') then
      (Slice.from? 1 text).map fun rest => (rest.findIdx? (·.char == '}')).map (· + 2)
    else some (some 1)
  match start with
  | none => some false
  | some start =>
    let length := ((← Slice.from? start text).takeWhile isVariableCell).length
    if start = 1 ∧ length = 0 then some false
    else
      let rest ← Slice.from? (start + length) text
      some ((rest.find? (!·.isBlank)).any (·.char == ':'))

def atRule? (text : List Cell) : Option Prelude := do
  let length := ((← Slice.from? 1 text).takeWhile isNameCell).length
  let name ← Slice.between? 1 (1 + length) text
  let params ← Slice.trim? Cell.isBlank (← Slice.from? (1 + length) text)
  some (.atRule (Cell.text name) (Cell.text params))

def declarationOf? (text : List Cell) : Option Declaration := do
  let colon := (text.findIdx? (·.char == ':')).getD text.length
  let prop ← Slice.trim? Cell.isBlank (← Slice.upTo? colon text)
  -- There is nothing behind the colon if there is none.
  let value ← Slice.trim? Cell.isBlank ((Slice.from? (colon + 1) text).getD [])
  let first ← text[0]?
  let valueStart :=
    match value with
    | c :: _ => c.pos
    | [] => text[colon]?.elim first.pos fun c => ⟨c.pos.line, c.pos.column + 1⟩
  let (value, important) ← splitImportant? (Cell.chars value)
  some
    { prop := Cell.text prop
      value := String.ofList value
      important
      start := first.pos
      valueStart }

def preludeOf? (text : List Cell) : Option Prelude :=
  if text.head?.any (·.char == '@') then atRule? text else some (.selector (Cell.text text))

def nodeOf? (flavor : Flavor) (text : List Cell) : Option (Except ParseError (Option Node)) :=
  match text.head? with
  | none => some (.ok none)
  | some first =>
    if first.char = '@' then do
      if ← if flavor.mixins then isVariable? text else some false then
        (declarationOf? text).map fun d => .ok (some (.declaration d))
      else (atRule? text).map fun p => .ok (some (.statement p first.pos))
    else if text.any (·.char == ':') then
      (declarationOf? text).map fun d => .ok (some (.declaration d))
    else if flavor.mixins && (first.char == '.' || first.char == '#') then
      some (.ok (some (.statement (.selector (Cell.text text)) first.pos)))
    else some (.error ⟨.unknownWord, first.pos⟩)

theorem from?_one (first : Cell) (rest : List Cell) : Slice.from? 1 (first :: rest) = some rest :=
  Slice.from?_append [first] rest

theorem atRule?_eq (first : Cell) (rest : List Cell) :
    atRule? (first :: rest) = some (atRulePrelude rest) := by
  have split : [first] ++ (rest.takeWhile isNameCell ++ rest.dropWhile isNameCell) = first :: rest := by
    rw [List.takeWhile_append_dropWhile, List.singleton_append]
  have name := Slice.between?_append [first] (rest.takeWhile isNameCell) (rest.dropWhile isNameCell)
  have params := Slice.from?_append ([first] ++ rest.takeWhile isNameCell) (rest.dropWhile isNameCell)
  rw [split] at name
  rw [List.append_assoc, split, List.length_append] at params
  simp only [List.length_singleton] at name params
  simp only [atRule?, from?_one, Option.bind_eq_bind, Option.bind_some, name, params, Slice.trim?_eq]
  rfl

theorem find?_not_isBlank (cells : List Cell) :
    (cells.find? (!·.isBlank)).any (·.char == ':') = colonFollows cells := by
  rw [colonFollows, List.find?_eq_head?_dropWhile_not]
  simp only [Bool.not_not]
  cases cells.dropWhile Cell.isBlank <;> rfl

theorem from?_name (before rest : List Cell) :
    Slice.from? (before.length + (rest.takeWhile isVariableCell).length) (before ++ rest) =
      some (rest.dropWhile isVariableCell) := by
  have slice := Slice.from?_append (before ++ rest.takeWhile isVariableCell)
    (rest.dropWhile isVariableCell)
  rwa [List.append_assoc, List.takeWhile_append_dropWhile, List.length_append] at slice

theorem isVariable?_eq (first : Cell) (rest : List Cell) :
    isVariable? (first :: rest) = some (isVariableText rest) := by
  have second : (first :: rest)[1]?.any (·.char == '{') = startsWith '{' rest := by
    cases rest <;> rfl
  rw [isVariable?, isVariableText, second, from?_one]
  cases startsWith '{' rest with
  | true =>
    cases cut : rest.dropWhile (·.char != '}') with
    | nil =>
      have none : rest.findIdx? (·.char == '}') = none := Slice.findIdx?_of_dropWhile_nil cut
      simp only [if_true, Option.map_some, none]
      rfl
    | cons close after =>
      have found : rest.findIdx? (·.char == '}') = some (rest.takeWhile (·.char != '}')).length :=
        Slice.findIdx?_of_dropWhile cut
      -- The name begins behind the brace that closes the interpolation.
      have before : (rest.takeWhile (·.char != '}')).length + 2 =
          (first :: rest.takeWhile (·.char != '}') ++ [close]).length := by simp
      have split : (first :: rest.takeWhile (·.char != '}') ++ [close]) ++ after = first :: rest := by
        rw [List.append_assoc, List.cons_append, List.singleton_append, ← cut,
          List.takeWhile_append_dropWhile]
      have start := Slice.from?_append (first :: rest.takeWhile (·.char != '}') ++ [close]) after
      have name := from?_name (first :: rest.takeWhile (·.char != '}') ++ [close]) after
      rw [split, ← before] at start name
      have other : ¬(rest.takeWhile (·.char != '}')).length + 2 = 1 := by omega
      simp only [if_true, Option.map_some, found, Option.bind_eq_bind, Option.bind_some, start, name,
        other, false_and, if_false, find?_not_isBlank]
  | false =>
    have name := from?_name [first] rest
    rw [List.length_singleton, List.singleton_append] at name
    simp only [Bool.false_eq_true, if_false, Option.bind_eq_bind, Option.bind_some, from?_one, name,
      true_and, List.length_eq_zero_iff, find?_not_isBlank]
    cases rest.takeWhile isVariableCell <;> rfl

theorem declarationOf?_eq (first : Cell) (rest : List Cell) :
    declarationOf? (first :: rest) = some (declarationOf first rest) := by
  have colon : ((first :: rest).findIdx? (·.char == ':')).getD (first :: rest).length =
      ((first :: rest).takeWhile (·.char != ':')).length := Slice.getD_findIdx? _ _
  have split : (first :: rest).takeWhile (·.char != ':') ++ (first :: rest).dropWhile (·.char != ':') =
      first :: rest := List.takeWhile_append_dropWhile
  have prop := Slice.upTo?_append ((first :: rest).takeWhile (·.char != ':'))
    ((first :: rest).dropWhile (·.char != ':'))
  have value := Slice.getD_from?_append ((first :: rest).takeWhile (·.char != ':'))
    ((first :: rest).dropWhile (·.char != ':'))
  have place := Slice.getElem?_append ((first :: rest).takeWhile (·.char != ':'))
    ((first :: rest).dropWhile (·.char != ':'))
  rw [split] at prop value place
  rw [declarationOf?, declarationOf]
  simp only [colon, prop, value, place, Option.bind_eq_bind, Option.bind_some, Slice.trim?_eq,
    splitImportant?_eq, List.getElem?_cons_zero]
  cases Text.trimWhile Cell.isBlank (((first :: rest).dropWhile (·.char != ':')).drop 1) with
  | nil => cases (first :: rest).dropWhile (·.char != ':') <;> rfl
  | cons c more => rfl

theorem preludeOf?_eq (text : List Cell) : preludeOf? text = some (preludeOf text) := by
  cases text with
  | nil => rfl
  | cons first rest =>
    rw [preludeOf?, preludeOf, atRule?_eq]
    simp only [List.head?_cons, Option.any_some, beq_iff_eq]
    split <;> rfl

theorem nodeOf?_eq (flavor : Flavor) (text : List Cell) :
    nodeOf? flavor text = some (nodeOf flavor text) := by
  cases text with
  | nil => rfl
  | cons first rest =>
    rw [nodeOf?, nodeOf, isVariable?_eq, atRule?_eq, declarationOf?_eq]
    simp only [List.head?_cons]
    by_cases atSign : first.char = '@'
    · simp only [if_pos atSign]
      cases flavor.mixins <;> cases isVariableText rest <;> rfl
    · simp only [if_neg atSign]
      split_ifs <;> rfl

example : atRule? [] = none ∧ declarationOf? [] = none := ⟨rfl, rfl⟩

end SheetLint.Brace
