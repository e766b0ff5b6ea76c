import SheetLint.Parse
import SheetLint.Proofs.Brace.Acceptance
import SheetLint.Proofs.Brace.ReturnedSheet
import SheetLint.Proofs.Source

namespace SheetLint

open Text

namespace Indented

theorem dropReturn_cons {c : Char} (visible : c ≠ '\r') (row : List Char) :
    dropReturn (c :: row) = c :: dropReturn row := by
  unfold dropReturn
  cases row with
  | nil => simp [visible]
  | cons d row =>
    rw [List.getLast?_cons_cons]
    split <;> rfl

theorem map_dropReturn_splitLines {text : List Char} (plain : '\r' ∉ text) :
    (splitLines (crlf text)).map dropReturn = (splitLines text).map dropReturn := by
  induction text with
  | nil => rfl
  | cons c text ih =>
    rw [List.mem_cons, not_or] at plain
    have rows := ih plain.2
    by_cases newline : c = '\n'
    · subst newline
      have broken : splitLines (crlf ('\n' :: text)) = ['\r'] :: splitLines (crlf text) := rfl
      have whole : splitLines ('\n' :: text) = [] :: splitLines text := rfl
      rw [broken, whole, List.map_cons, List.map_cons, rows]
      rfl
    · have pushed (rows : List (List Char)) :
          (rows.modifyHead (c :: ·)).map dropReturn = (rows.map dropReturn).modifyHead (c :: ·) := by
        cases rows with
        | nil => rfl
        | cons row rows =>
          rw [List.modifyHead_cons, List.map_cons, dropReturn_cons (Ne.symm plain.1)]
          rfl
      rw [crlf_cons, if_neg newline, List.singleton_append, splitLines_cons, splitLines_cons,
        if_neg newline, if_neg newline, pushed, pushed, rows]

theorem linesOf_crlf {text : List Char} (plain : '\r' ∉ text) :
    linesOf (crlf text) = linesOf text := by
  have lines (text : List Char) : linesOf text =
      (((splitLines text).map dropReturn).zipIdx 1).map fun l => ⟨l.2, l.1⟩ := by
    rw [List.zipIdx_map, List.map_map]
    rfl
  rw [lines, lines, map_dropReturn_splitLines plain]

theorem parse_crlf_eq {text : List Char} (plain : '\r' ∉ text) :
    parse (crlf text) = parse text := by
  have visible : '\r' ∉ dropByteOrderMark text :=
    fun mem => plain ((dropByteOrderMark_suffix text).subset mem)
  rw [parse, parse, entries, entries, dropByteOrderMark_crlf, linesOf_crlf visible]

end Indented

/-- A sheet with two-character line endings is parsed, or refused, as the one with plain newlines, up
to returns in the strings of the tree, unless the dialect has braces and a string has an escaped
newline: the sheet is then refused at that string. -/
theorem Dialect.parse_crlf (d : Dialect) {text : String} (plain : '\r' ∉ text.toList) :
    (d.parse (String.ofList (crlf text.toList))).map Sheet.withoutReturns =
        (d.parse text).map Sheet.withoutReturns ∨
      d ≠ .sugarss ∧ ∃ before quote after,
        dropByteOrderMark text.toList = before ++ quote :: after ∧ (quote = '"' ∨ quote = '\'') ∧
        Brace.escapesNewline quote after = true ∧
        d.parse (String.ofList (crlf text.toList)) =
          .error ⟨.unclosedString, Position.start.advance before⟩ := by
  cases braces : d.flavor? with
  | none =>
    left
    simp only [parse, braces, String.toList_ofList, Indented.parse_crlf_eq plain]
  | some flavor =>
    have same := Brace.parse_returned (Brace.ordinary_of_flavor? braces) plain
    simp only [parse, braces, String.toList_ofList]
    generalize Brace.parse flavor text.toList = read at *
    generalize Brace.parse flavor (crlf text.toList) = read' at *
    cases same with
    | ok same =>
      left
      exact congrArg Except.ok same
    | error e => exact .inl rfl
    | cut quote within escapes =>
      obtain ⟨before, split, pos⟩ := split_of_suffix within
      refine .inr ⟨?_, before, _, _, split, quote, escapes, by rw [pos]⟩
      rintro rfl
      cases braces

theorem Dialect.parse_crlf_value :
    '\r' ∉ "a: b\nc".toList ∧
    (Dialect.css.parse (String.ofList (crlf "a: b\nc".toList))).map Sheet.withoutReturns =
      (Dialect.css.parse "a: b\nc").map Sheet.withoutReturns := by
  have plain : '\r' ∉ "a: b\nc".toList := by decide
  refine ⟨plain, (Dialect.parse_crlf .css plain).resolve_right ?_⟩
  rintro ⟨-, before, quote, after, split, quoted, -⟩
  have mem : quote ∈ dropByteOrderMark "a: b\nc".toList := by
    rw [split]
    exact List.mem_append_right before List.mem_cons_self
  rcases quoted with rfl | rfl
  · exact absurd mem (by decide)
  · exact absurd mem (by decide)

theorem Dialect.parse_crlf_escaped :
    Dialect.css.parse "a:\"\\\n\"" =
      .ok ⟨[.declaration ⟨"a", "\"\\\n\"", false, ⟨1, 1⟩, ⟨1, 3⟩⟩]⟩ ∧
    Dialect.css.parse (String.ofList (crlf "a:\"\\\n\"".toList)) =
      .error ⟨.unclosedString, ⟨1, 3⟩⟩ := by
  constructor
  · have read : Brace.readStatement .css 0 [] (Cell.ofChars .start "a:\"\\\n\"".toList) =
        .ok ((Cell.ofChars .start "a:\"\\\n\"".toList).reverse, []) := by
      simp [Brace.readStatement, Brace.readString, Brace.Flavor.css, Brace.startsWith, Position.after]
    exact Brace.parse_of_statement rfl rfl (by decide) read rfl
  · have read : Brace.readStatement .css 0 [] (Cell.ofChars .start "a:\"\\\r\n\"".toList) =
        .error ⟨.unclosedString, ⟨1, 3⟩⟩ := by
      simp [Brace.readStatement, Brace.readString, Brace.Flavor.css, Brace.startsWith, Position.after,
        Position.start]
    have returned : String.ofList (crlf "a:\"\\\n\"".toList) = "a:\"\\\r\n\"" := by decide
    have bare : dropByteOrderMark "a:\"\\\r\n\"".toList = "a:\"\\\r\n\"".toList := rfl
    rw [returned, parse, flavor?]
    simp only [Brace.parse, Brace.parseWithin]
    rw [bare, Brace.Outline.readAll_eq, Brace.next_of_head rfl rfl (by decide), read]
    rfl

end SheetLint
