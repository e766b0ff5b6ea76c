import SheetLint.Proofs.Brace.Placement

namespace SheetLint

namespace Text

def isKept (c : Char) : Bool :=
  !isBlank c && c != ';'

def squeeze (cs : List Char) : List Char :=
  lowerAscii (cs.filter isKept)

theorem squeeze_append (cs ds : List Char) : squeeze (cs ++ ds) = squeeze cs ++ squeeze ds := by
  simp [squeeze, lowerAscii]

theorem squeeze_cons (c : Char) (cs : List Char) : squeeze (c :: cs) = squeeze [c] ++ squeeze cs :=
  squeeze_append [c] cs

theorem not_isKept_of_isBlank {c : Char} (blank : isBlank c = true) : isKept c = false := by
  simp [isKept, blank]

theorem squeeze_trim (cs : List Char) : squeeze (trim cs) = squeeze cs := by
  rw [squeeze, trim, filter_trimWhile fun _ => not_isKept_of_isBlank]
  rfl

theorem squeeze_trimEnd (cs : List Char) : squeeze (trimEnd cs) = squeeze cs := by
  rw [squeeze, trimEnd, filter_dropEndWhile fun _ => not_isKept_of_isBlank]
  rfl

theorem isKept_of_between {c : Char} (low : 60 ≤ c.toNat) (high : c.toNat ≤ 122) :
    isKept c = true := by
  have apart : c ≠ ';' := by
    rintro rfl
    simp at low
  simp only [isKept, isBlank, Bool.and_eq_true, bne_iff_ne, ne_eq, apart, not_false_eq_true,
    and_true, Bool.not_eq_true', Bool.or_eq_false_iff, Bool.and_eq_false_imp, decide_eq_true_eq,
    decide_eq_false_iff_not, beq_eq_false_iff_ne]
  omega

theorem isKept_toLower (c : Char) : isKept c.toLower = isKept c := by
  by_cases upper : c.val ≥ 'A'.val ∧ c.val ≤ 'Z'.val
  · have range : 65 ≤ c.toNat ∧ c.toNat ≤ 90 := upper
    have lower : c.toLower.toNat = c.toNat + 32 := by
      unfold Char.toLower
      simp only [upper, and_self, dite_true, Char.toNat]
      rw [UInt32.toNat_add]
      change (c.toNat + 32) % 2 ^ 32 = c.toNat + 32
      omega
    rw [isKept_of_between (by omega) (by omega), isKept_of_between (by omega) (by omega)]
  · unfold Char.toLower
    simp only [upper, dite_false]

theorem squeeze_eq_filter (cs : List Char) : squeeze cs = (lowerAscii cs).filter isKept := by
  have same : isKept ∘ Char.toLower = isKept := funext isKept_toLower
  rw [squeeze, lowerAscii, lowerAscii, List.filter_map, same]

end Text

open Text

/-! ## Trees as text -/

def Prelude.text : Prelude → List Char
  | .selector text => text.toList
  | .atRule name params => '@' :: (name.toList ++ params.toList)

def Writer.text : Writer Char where
  leaf
    | .comment c => '/' :: '*' :: (c.text.toList ++ ['*', '/'])
    | .declaration d =>
      d.prop.toList ++ ':' :: (d.value.toList ++ if d.important then importantFlag else [])
    | .statement prelude _ => prelude.text
    | .block _ _ _ _ => []
  opening prelude _ _ := prelude.text ++ ['{']
  closing := ['}']

def Sheet.render (s : Sheet) : List Char :=
  Writer.text.all s.nodes

namespace Brace

open Scan

/-! ## Statements -/

theorem squeeze_atRulePrelude {c : Cell} (at' : c.char = '@') (rest : List Cell) :
    squeeze (atRulePrelude rest).text = squeeze (Cell.chars (c :: rest)) := by
  have split : Cell.chars rest =
      Cell.chars (rest.takeWhile isNameCell) ++ Cell.chars (rest.dropWhile isNameCell) := by
    rw [← chars_append, List.takeWhile_append_dropWhile]
  rw [atRulePrelude, Prelude.text, toList_text, toList_text, chars_trimWhile, chars_cons, at', split,
    squeeze_cons, squeeze_append, squeeze_trim, squeeze_cons _ (_ ++ _), squeeze_append]

theorem squeeze_preludeOf (text : List Cell) :
    squeeze (preludeOf text).text = squeeze (Cell.chars text) := by
  cases text with
  | nil => rfl
  | cons c rest =>
    rw [preludeOf]
    split
    next at' => exact squeeze_atRulePrelude at' rest
    next => rw [Prelude.text, toList_text]

theorem squeeze_splitImportant (raw : List Char) :
    squeeze ((splitImportant raw).1 ++ if (splitImportant raw).2 then importantFlag else []) =
      squeeze raw := by
  simp only [splitImportant]
  split
  next flagged =>
    have flag : squeeze importantFlag =
        squeeze (raw.drop (raw.length - importantFlag.length)) := by
      rw [squeeze_eq_filter (raw.drop _), flagged]
      rfl
    rw [if_pos rfl, squeeze_append, squeeze_trimEnd, flag, ← squeeze_append,
      List.take_append_drop]
  next => simp

theorem squeeze_declarationOf {first : Cell} {rest : List Cell}
    (assigns : ∃ c ∈ first :: rest, c.char = ':') :
    squeeze (Writer.text.leaf (.declaration (declarationOf first rest))) =
      squeeze (Cell.chars (first :: rest)) := by
  obtain ⟨before, colon, after, split, char, taken, dropped, -⟩ := exists_split_colon assigns
  have value := squeeze_splitImportant (Cell.chars (Text.trimWhile Cell.isBlank after))
  rw [chars_trimWhile, squeeze_trim] at value
  simp only [Writer.text, declarationOf, dropped, taken, List.drop_one, List.tail_cons, toList_text,
    String.toList_ofList, chars_trimWhile]
  rw [split, chars_append, chars_cons, char, squeeze_append, squeeze_append, squeeze_trim,
    squeeze_cons, value, ← squeeze_cons]

theorem squeeze_nodeOf {flavor : Flavor} {text : List Cell} {n : Option Node}
    (h : nodeOf flavor text = .ok n) :
    squeeze (n.elim [] Writer.text.leaf) = squeeze (Cell.chars text) := by
  cases text with
  | nil =>
    cases h
    rfl
  | cons c rest =>
    rw [nodeOf] at h
    split_ifs at h with at' variable' colon mixin
    · cases h
      obtain ⟨d, mem, char⟩ := exists_colon_of_isVariableText (Bool.and_eq_true_iff.1 variable').2
      exact squeeze_declarationOf ⟨d, .tail _ mem, char⟩
    · cases h
      exact squeeze_atRulePrelude at' rest
    · cases h
      exact squeeze_declarationOf (by simpa using colon)
    · cases h
      exact congrArg squeeze (toList_text (c :: rest))

/-! ## Pieces -/

def NoLineComment (flavor : Flavor) (cells : List Cell) : Prop :=
  flavor.lineComments = true → ¬['/', '/'] <:+: Cell.chars cells

variable {flavor : Flavor}

theorem NoLineComment.suffix {cells more : List Cell} (h : NoLineComment flavor cells)
    (later : more <:+ cells) : NoLineComment flavor more := by
  intro comments inside
  exact h comments (inside.trans (later.map Cell.char).isInfix)

theorem NoLineComment.not_starts {c : Cell} {rest : List Cell} (h : NoLineComment flavor (c :: rest)) :
    ¬(c.char = '/' ∧ flavor.lineComments = true ∧ startsWith '/' rest = true) := by
  rintro ⟨slash, comments, second⟩
  obtain ⟨d, more, rfl, slash'⟩ := head?_eq_of_startsWith second
  refine h comments ⟨[], Cell.chars more, ?_⟩
  simp [Cell.chars, slash, slash']

theorem Reading.Grows.whole {buffer cells : List Cell} {r : Reading} (h : r.Grows buffer cells) :
    r.1.reverse ++ r.2 = buffer.reverse ++ cells := by
  obtain ⟨taken, -, rfl, before⟩ := h
  simp [before]

theorem take_append_reverse {c : Cell} {buffer rest : List Cell} :
    (rest.take 1 ++ c :: buffer).reverse ++ rest.drop 1 = buffer.reverse ++ c :: rest := by
  cases rest <;> simp

theorem readStatement_whole {parens : Nat} {buffer cells : List Cell} {r : Reading}
    (h : readStatement flavor parens buffer cells = .ok r) (plain : NoLineComment flavor cells) :
    r.1.reverse ++ r.2 = buffer.reverse ++ cells := by
  fun_induction readStatement flavor parens buffer cells with
  | case1 => cases h; rfl
  | case2 | case4 | case7 => cases h
  | case3 parens buffer c rest quote r' read ih =>
    have grown := readString_grows read
    rw [ih h (plain.suffix (grown.suffix.trans (List.suffix_cons c rest))), grown.whole]
    simp
  | case5 parens buffer c rest quote comment r' read ih =>
    have grown := readComment_grows read
    have later := grown.suffix.trans ((List.drop_suffix 1 rest).trans (List.suffix_cons c rest))
    rw [ih h (plain.suffix later), grown.whole, take_append_reverse]
  | case6 parens buffer c rest quote comment line ih =>
    exact absurd ⟨line.1, line.2.2.1, line.2.2.2⟩ plain.not_starts
  | case8 parens buffer c rest quote comment line braced r' read ih =>
    have grown := readInterpolation_grows read
    have later := grown.suffix.trans ((List.drop_suffix 1 rest).trans (List.suffix_cons c rest))
    rw [ih h (plain.suffix later), grown.whole, take_append_reverse]
  | case9 parens buffer c rest quote comment line braced opened ih =>
    rw [ih h (plain.suffix (List.suffix_cons c rest))]
    simp
  | case10 parens buffer c rest quote comment line braced opened closed ih =>
    rw [ih h (plain.suffix (List.suffix_cons c rest))]
    simp
  | case11 => cases h; rfl
  | case12 parens buffer c rest quote comment line braced opened closed ended ih =>
    rw [ih h (plain.suffix (List.suffix_cons c rest))]
    simp

def Piece.Known (flavor : Flavor) (piece : Piece) : Prop :=
  ∀ text, piece = .statement text → ∃ n, nodeOf flavor text = .ok n

theorem squeeze_collected (buffer : List Cell) :
    squeeze (Cell.chars (Piece.collected buffer)) = squeeze (Cell.chars buffer.reverse) := by
  rw [Piece.collected, chars_trimWhile, squeeze_trim]

theorem squeeze_statement {text : List Cell} (known : (Piece.statement text).Known flavor) :
    squeeze (Piece.write .text flavor (.statement text)) = squeeze (Cell.chars text) := by
  obtain ⟨n, node⟩ := known text rfl
  rw [← squeeze_nodeOf node, Piece.write, node]
  cases n <;> rfl

theorem squeeze_opening (text : List Cell) (brace : Position) :
    squeeze (Piece.write .text flavor (.opening text brace)) =
      squeeze (Cell.chars text) ++ squeeze ['{'] := by
  rw [Piece.write, Writer.text, squeeze_append, squeeze_preludeOf]

theorem squeeze_ofStatement {buffer rest : List Cell}
    (known : (Piece.ofStatement buffer rest).1.Known flavor) :
    squeeze ((Piece.ofStatement buffer rest).1.write .text flavor) ++
        squeeze (Cell.chars (Piece.ofStatement buffer rest).2) =
      squeeze (Cell.chars (buffer.reverse ++ rest)) := by
  rw [chars_append, squeeze_append]
  unfold Piece.ofStatement at *
  split
  · rw [squeeze_statement known, squeeze_collected]
  next d rest =>
    simp only at known
    split_ifs at known ⊢ with opening semicolon
    · rw [squeeze_opening, squeeze_collected, List.append_assoc, chars_cons, opening,
        ← squeeze_cons]
    · have gone : squeeze (Cell.chars (d :: rest)) = squeeze (Cell.chars rest) := by
        rw [chars_cons, semicolon]
        rfl
      rw [squeeze_statement known, squeeze_collected, gone]
    · rw [squeeze_statement known, squeeze_collected]

theorem squeeze_ofCell {c : Cell} {rest : List Cell} {p : Piece × List Cell}
    (plain : NoLineComment flavor (c :: rest)) (h : Piece.ofCell flavor c rest = .ok p)
    (known : p.1.Known flavor) :
    squeeze (p.1.write .text flavor) ++ squeeze (Cell.chars p.2) =
      squeeze (Cell.chars (c :: rest)) := by
  unfold Piece.ofCell at h
  split_ifs at h with closing opening block line
  · cases h
    rw [chars_cons, closing, squeeze_cons]
    rfl
  · cases h
    rw [chars_cons, opening, squeeze_cons]
    rfl
  · split at h
    · cases h
    next buffer after read =>
      cases h
      obtain ⟨d, rest, rfl, star'⟩ := head?_eq_of_startsWith block.2
      obtain ⟨star, slash, body, closed, char, char'⟩ := readComment_closed read
      change buffer = slash :: star :: body at closed
      have whole : buffer.reverse ++ after = rest := (readComment_grows read).whole
      have text : Cell.chars (c :: d :: rest) =
          ['/', '*'] ++ Cell.chars body.reverse ++ ['*', '/'] ++ Cell.chars after := by
        simp [← whole, closed, Cell.chars, char, char', block.1, star']
      have written : (Piece.commentOf c (buffer.drop 2).reverse false).write .text flavor =
          ['/', '*'] ++ Text.trim (Cell.chars body.reverse) ++ ['*', '/'] := by
        simp [closed, Piece.commentOf, Piece.write, Writer.text]
      simp only [text, written, squeeze_append, squeeze_trim]
  · exact absurd line plain.not_starts
  · obtain ⟨r, read, rfl⟩ := map_eq_ok_iff.1 h
    have whole : r.1.reverse ++ r.2 = c :: rest := readStatement_whole read plain
    rw [squeeze_ofStatement known, whole]

theorem squeeze_dropWhile_isGap (cells : List Cell) :
    squeeze (Cell.chars (cells.dropWhile Piece.isGap)) = squeeze (Cell.chars cells) := by
  have gap : (fun c => isBlank c || c == ';') ∘ Cell.char = Piece.isGap := rfl
  have apart (c : Char) (between : (isBlank c || c == ';') = true) : isKept c = false := by
    rw [isKept, Bool.and_eq_false_iff]
    simpa using between
  rw [Cell.chars, ← gap, ← List.dropWhile_map, squeeze, filter_dropWhile apart]
  rfl

theorem squeeze_pieces {cells : List Cell} {ps : List Piece} (plain : NoLineComment flavor cells)
    (read : pieces flavor cells = .ok ps) (known : ∀ piece ∈ ps, piece.Known flavor) :
    squeeze (ps.flatMap (Piece.write .text flavor)) = squeeze (Cell.chars cells) := by
  fun_induction pieces flavor cells generalizing ps with
  | case1 => cases read
  | case2 cells next =>
    cases read
    rw [← squeeze_dropWhile_isGap, Piece.next_eq_none_iff.1 next]
    rfl
  | case3 cells piece rest next ih =>
    obtain ⟨more, read', rfl⟩ := map_eq_ok_iff.1 read
    obtain ⟨c, after, cut, made⟩ := Piece.next_eq_some_iff.1 next
    have plain' : NoLineComment flavor (c :: after) := by
      rw [← cut]
      exact plain.suffix (List.dropWhile_suffix _)
    have first := squeeze_ofCell plain' made (known piece List.mem_cons_self)
    have later := ih (plain'.suffix (Piece.suffix_ofCell made)) read' fun p mem =>
      known p (.tail _ mem)
    rw [← squeeze_dropWhile_isGap, List.flatMap_cons, squeeze_append, later, first, cut]

/-- The tree of a text, written down again, is the text up to blanks, semicolons and the case of the
letters A to Z. -/
theorem squeeze_render {d : Dialect} {flavor : Flavor} (h : d.flavor? = some flavor) {text : String}
    (plain : d = .css ∨ ¬"//".toList <:+: text.toList) {sheet : Sheet}
    (parsed : d.parse text = .ok sheet) :
    squeeze sheet.render = squeeze (Text.dropByteOrderMark text.toList) := by
  simp only [Dialect.parse, h, parse] at parsed
  obtain ⟨ps, read, known, written⟩ := write_parseWithin parsed
  have plain' : NoLineComment flavor
      (Cell.ofChars .start (Text.dropByteOrderMark text.toList)) := by
    intro comments inside
    rw [Cell.chars_ofChars] at inside
    rcases plain with rfl | plain
    · cases h
      cases comments
    · exact plain (inside.trans (dropByteOrderMark_suffix text.toList).isInfix)
  have whole := squeeze_pieces plain' read ?_
  · rw [Cell.chars_ofChars] at whole
    rw [Sheet.render, written, whole]
  · rintro piece mem text rfl
    exact known text mem

theorem squeeze_render_flagged :
    Dialect.scss.flavor? = some .scss ∧ ¬"//".toList <:+: "\x7bB: c !Important;\x7d".toList ∧
    Dialect.scss.parse "\x7bB: c !Important;\x7d" =
      .ok ⟨[.block (.selector "") ⟨1, 1⟩ ⟨1, 1⟩ [.declaration ⟨"B", "c", true, ⟨1, 2⟩, ⟨1, 5⟩⟩]]⟩ ∧
    squeeze (Sheet.render
      ⟨[.block (.selector "") ⟨1, 1⟩ ⟨1, 1⟩ [.declaration ⟨"B", "c", true, ⟨1, 2⟩, ⟨1, 5⟩⟩]]⟩) =
      squeeze "\x7bB: c !Important;\x7d".toList := by
  have read : readStatement .scss 0 [] (Cell.ofChars ⟨1, 2⟩ "B: c !Important;\x7d".toList) =
      .ok ((Cell.ofChars ⟨1, 2⟩ "B: c !Important".toList).reverse,
        Cell.ofChars ⟨1, 17⟩ ";\x7d".toList) := by
    simp [readStatement, Flavor.scss, startsWith, Position.after]
  have statement : Piece.next .scss (Cell.ofChars ⟨1, 2⟩ "B: c !Important;\x7d".toList) =
      .ok (some (.statement (Cell.ofChars ⟨1, 2⟩ "B: c !Important".toList), [⟨'}', ⟨1, 18⟩⟩])) := by
    have next : Piece.next .scss (Cell.ofChars ⟨1, 2⟩ "B: c !Important;\x7d".toList) =
      ((readStatement .scss 0 [] (Cell.ofChars ⟨1, 2⟩ "B: c !Important;\x7d".toList)).map fun r =>
        Piece.ofStatement r.1 r.2).map some := rfl
    rw [next, read]
    rfl
  have opening : Piece.next .scss (Cell.ofChars .start "\x7bB: c !Important;\x7d".toList) =
      .ok (some (.opening [] ⟨1, 1⟩, Cell.ofChars ⟨1, 2⟩ "B: c !Important;\x7d".toList)) := rfl
  have closing : Piece.next .scss [⟨'}', ⟨1, 18⟩⟩] = .ok (some (.closing ⟨1, 18⟩, [])) := rfl
  have ended : pieces .scss [] = .ok [] := pieces_of_none rfl
  have whole : pieces .scss (Cell.ofChars .start "\x7bB: c !Important;\x7d".toList) =
      .ok [.opening [] ⟨1, 1⟩, .statement (Cell.ofChars ⟨1, 2⟩ "B: c !Important".toList),
        .closing ⟨1, 18⟩] := by
    rw [pieces_of_some opening, pieces_of_some statement, pieces_of_some closing, ended]
    rfl
  have parsed : Dialect.scss.parse "\x7bB: c !Important;\x7d" =
      .ok ⟨[.block (.selector "") ⟨1, 1⟩ ⟨1, 1⟩
        [.declaration ⟨"B", "c", true, ⟨1, 2⟩, ⟨1, 5⟩⟩]]⟩ :=
    map_eq_ok_iff.2 ⟨_, (Outline.readAll_eq_ok_iff _ _ _).2 ⟨_, _, whole, rfl, rfl⟩, rfl⟩
  have plain : ¬"//".toList <:+: "\x7bB: c !Important;\x7d".toList := by
    intro inside
    have : '/' ∈ "\x7bB: c !Important;\x7d".toList := inside.subset List.mem_cons_self
    simp at this
  exact ⟨rfl, plain, parsed, squeeze_render rfl (.inr plain) parsed⟩

end Brace

end SheetLint
