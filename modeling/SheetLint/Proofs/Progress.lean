import SheetLint.Proofs.Brace.Descent
import SheetLint.Proofs.Indented.Descent

namespace SheetLint

namespace Brace

structure Progresses (flavor : Flavor) : Prop where
  string : ∀ quote, Turn.Computes Prod.snd (stringTurn quote) fun r => readString quote r.1 r.2
  comment : Turn.Computes Prod.snd commentTurn fun r => readComment r.1 r.2
  body : Turn.Computes Prod.snd bodyTurn fun r =>
    (readComment r.1 r.2).map fun q => (q.1.drop 2, q.2)
  line : Turn.Computes Prod.snd lineTurn fun r =>
    ((r.2.takeWhile (·.char != '\n')).reverse ++ r.1, afterLine r.2)
  interpolation : Turn.Computes (fun s : Nat × Reading => s.2.2) interpolationTurn fun s =>
    match s.1 with
    | 0 => some s.2
    | depth + 1 => readInterpolation depth s.2.1 s.2.2
  collecting : Turn.Computes (fun s : Nat × Reading => s.2.2) (statementTurn flavor) fun s =>
    readStatement flavor s.1 s.2.1 s.2.2
  statement : ∀ cells s, AtStatement flavor cells → Statement.read flavor cells = .ok s →
    (∃ taken, taken ≠ [] ∧ cells = taken ++ s.rest) ∧ ∀ rest, s ≠ .whole none rest
  called : ∀ opener nodes cells, AtStatement flavor cells →
    visit flavor opener nodes cells = visitOf nodes (Statement.read flavor cells)
  containers : (descent flavor).Progresses

theorem progresses (flavor : Flavor) : Progresses flavor where
  string := computes_stringTurn
  comment := computes_commentTurn
  body := computes_bodyTurn
  line := computes_lineTurn
  interpolation := computes_interpolationTurn
  collecting := computes_statementTurn flavor
  statement _ _ := statement_read
  called opener nodes _ here := visit_statement here opener nodes
  containers := (descent_advances flavor).progresses

end Brace

namespace Indented

structure Progresses : Prop where
  comment : Turn.Computes OpenComment.lines commentTurn fun c =>
    (commentBody? c.tail c.lines).map fun r => (c.body ++ r.1, r.2)
  scan : Turn.Computes OpenScan.lines scanTurn fun s =>
    (entriesOf s.used s.lines).map (s.entries.reverse ++ ·)
  value : ∀ indent, Turn.Computes Prod.snd (valueTurn indent) fun s =>
    (continued s.1 (s.2.takeWhile (indent < ·.indent)), s.2.dropWhile (indent < ·.indent))
  levels : descent.Progresses
  outermost : ∀ depth deep nodes es inner left,
    descent.Ends depth deep 0 nodes es (.ok (inner, left)) → left = []

theorem progresses : Progresses where
  comment := computes_commentTurn
  scan := computes_scanTurn
  value := computes_valueTurn
  levels := descent_advances.progresses
  outermost _ _ _ _ _ _ := eq_nil_of_ends

def OpenScan.ofText (text : String) : OpenScan :=
  ⟨none, [], linesOf (Text.dropByteOrderMark text.toList)⟩

end Indented

namespace Dialect

/-- What parsing a text comes to, turn by turn, and how many containers are read in one another inside of
the outermost. -/
inductive Parses (d : Dialect) (text : String) : (deep : Nat) → Except ParseError Sheet → Prop
  | braces {flavor : Brace.Flavor} {deep : Nat} {r : Except ParseError (List Node × List Cell)}
    (braces : d.flavor? = some flavor)
    (read : (Brace.descent flavor).Ends 0 deep none [] (Brace.cellsOf text) r) :
    Parses d text deep (r.map fun body => ⟨body.1⟩)
  | unscanned {n : Nat} {e : ParseError} (indented : d.flavor? = none)
    (scan : Turn.Ends Indented.scanTurn n (.ofText text) (.error e)) : Parses d text 0 (.error e)
  | indented {n deep : Nat} {es : List Indented.Entry}
    {r : Except ParseError (List Node × List Indented.Entry)} (indented : d.flavor? = none)
    (scan : Turn.Ends Indented.scanTurn n (.ofText text) (.ok es))
    (read : Indented.descent.Ends 0 deep 0 [] es r) : Parses d text deep (r.map fun body => ⟨body.1⟩)

variable {d : Dialect} {text : String}

theorem Parses.unique {deep : Nat} {r : Except ParseError Sheet} (h : d.Parses text deep r) :
    ∀ deep' r', d.Parses text deep' r' → deep' = deep ∧ r' = r := by
  intro deep' r' h'
  cases h with
  | braces braces read =>
    cases h' with
    | braces braces' read' =>
      cases braces.symm.trans braces'
      obtain ⟨rfl, rfl⟩ := read.unique _ _ read'
      exact ⟨rfl, rfl⟩
    | unscanned indented | indented indented => cases braces.symm.trans indented
  | unscanned indented scan =>
    cases h' with
    | braces braces => cases indented.symm.trans braces
    | unscanned _ scan' =>
      cases (scan.unique _ _ scan').2
      exact ⟨rfl, rfl⟩
    | indented _ scan' => cases (scan.unique _ _ scan').2
  | indented indented scan read =>
    cases h' with
    | braces braces => cases indented.symm.trans braces
    | unscanned _ scan' => cases (scan.unique _ _ scan').2
    | indented _ scan' read' =>
      cases (scan.unique _ _ scan').2
      obtain ⟨rfl, rfl⟩ := read.unique _ _ read'
      exact ⟨rfl, rfl⟩

theorem exists_parses (d : Dialect) (text : String) :
    ∃ deep, deep ≤ Sheet.maxNesting ∧ d.Parses text deep (d.parse text) := by
  cases flavor : d.flavor? with
  | some f =>
    obtain ⟨deep, r, few, ends, -⟩ :=
      (Brace.progresses f).containers.ends 0 none [] (Brace.cellsOf text) (Nat.zero_le _)
    rw [Nat.zero_add] at few
    exact ⟨deep, few, Brace.parse_eq_of_ends flavor ends ▸ .braces flavor ends⟩
  | none =>
    obtain ⟨n, -, scan⟩ := Indented.progresses.scan.ends (.ofText text)
    have parsed : d.parse text = Indented.parse text.toList := by rw [parse, flavor]
    rw [parsed, Indented.parse, Indented.entries]
    simp only [Indented.OpenScan.ofText, List.reverse_nil, List.nil_append] at scan
    cases scanned : Indented.entriesOf none
        (Indented.linesOf (Text.dropByteOrderMark text.toList)) with
    | error e =>
      rw [scanned] at scan
      exact ⟨0, Nat.zero_le _, .unscanned flavor scan⟩
    | ok es =>
      obtain ⟨deep, r, few, ends, -⟩ :=
        Indented.progresses.levels.ends 0 0 [] es (Nat.zero_le _)
      rw [Nat.zero_add] at few
      rw [scanned] at scan
      refine ⟨deep, few, ?_⟩
      simp only [Indented.nodesOf_eq_of_ends ends]
      have read := Parses.indented flavor scan ends
      cases r <;> exact read

theorem parsing_progresses :
    (∀ flavor, Brace.Progresses flavor) ∧ Indented.Progresses ∧
      ∀ (d : Dialect) (text : String), ∃ deep, deep ≤ Sheet.maxNesting ∧
        d.Parses text deep (d.parse text) ∧
        ∀ deep' r, d.Parses text deep' r → deep' = deep ∧ r = d.parse text := by
  refine ⟨Brace.progresses, Indented.progresses, fun d text => ?_⟩
  obtain ⟨deep, few, parses⟩ := exists_parses d text
  exact ⟨deep, few, parses, parses.unique⟩

theorem parsing_progresses_unclosed :
    Brace.AtStatement .css (Brace.cellsOf "a\x7b") ∧
    Brace.Statement.read .css (Brace.cellsOf "a\x7b") =
      .ok (.opening (.selector "a") ⟨1, 1⟩ ⟨1, 2⟩ []) ∧
    (∃ taken, taken ≠ [] ∧ Brace.cellsOf "a\x7b" = taken ++ []) ∧
    css.Parses "a\x7b" 1 (.error ⟨.unclosedBlock, ⟨1, 2⟩⟩) ∧
    css.parse "a\x7b" = .error ⟨.unclosedBlock, ⟨1, 2⟩⟩ := by
  have begins : Brace.AtStatement .css (Brace.cellsOf "a\x7b") :=
    ⟨⟨_, _, rfl, by decide, by decide, by decide⟩, by decide⟩
  have opening : Brace.Statement.read .css (Brace.cellsOf "a\x7b") =
      .ok (.opening (.selector "a") ⟨1, 1⟩ ⟨1, 2⟩ []) := by
    have read : Brace.readStatement .css 0 [] (Brace.cellsOf "a\x7b") =
        .ok ((Cell.ofChars .start "a".toList).reverse, Cell.ofChars ⟨1, 2⟩ "\x7b".toList) := by
      have cells : Brace.cellsOf "a\x7b" = Cell.ofChars .start "a\x7b".toList := rfl
      simp [cells, Brace.readStatement, Brace.Flavor.css, Brace.startsWith, Position.start,
        Position.after]
    rw [Brace.Statement.read, read]
    rfl
  have parses : css.Parses "a\x7b" 1 (.error ⟨.unclosedBlock, ⟨1, 2⟩⟩) := by
    have turn : (Brace.descent .css).visit none [] (Brace.cellsOf "a\x7b") =
        .enter ⟨.selector "a", ⟨1, 1⟩, ⟨1, 2⟩, []⟩ [] :=
      (Brace.visit_statement begins none []).trans (congrArg (Brace.visitOf []) opening)
    exact .braces rfl (.failed turn (by decide) (.done rfl))
  obtain ⟨deep, -, -, only⟩ := parsing_progresses.2.2 css "a\x7b"
  exact ⟨begins, opening, ((parsing_progresses.1 .css).statement _ _ begins opening).1, parses,
    (only _ _ parses).2.symm⟩

end Dialect

end SheetLint
