import SheetLint.Proofs.Brace.Rendering
import SheetLint.Proofs.Brace.Returns

namespace SheetLint.Brace

open Scan

variable {flavor : Flavor}

structure Plain (flavor : Flavor) (cells : List Cell) : Prop where
  comment : NoLineComment flavor cells
  interpolation : ∀ c, flavor.interpolation = some c → ¬[c, '{'] <:+: Cell.chars cells

namespace Plain

variable {c : Cell} {cells more rest : List Cell}

theorem suffix (h : Plain flavor cells) (later : more <:+ cells) : Plain flavor more := by
  refine ⟨h.comment.suffix later, ?_⟩
  intro c opens inside
  exact h.interpolation c opens (inside.trans (later.map Cell.char).isInfix)

theorem tail (h : Plain flavor (c :: rest)) (later : more <:+ rest) : Plain flavor more :=
  h.suffix (later.trans (List.suffix_cons c rest))

theorem not_braced (h : Plain flavor (c :: rest)) :
    ¬(flavor.interpolation = some c.char ∧ startsWith '{' rest = true) := by
  rintro ⟨opens, second⟩
  obtain ⟨d, more, rfl, brace⟩ := head?_eq_of_startsWith second
  refine h.interpolation c.char opens ⟨[], Cell.chars more, ?_⟩
  simp [Cell.chars, brace]

end Plain

/-! ## Pieces -/

theorem readStatement_css_cons {parens : Nat} {buffer rest : List Cell} {c : Cell} :
    readStatement .css parens buffer (c :: rest) =
      if c.char = '"' ∨ c.char = '\'' then
        (readString c.char (c :: buffer) rest).elim (.error ⟨.unclosedString, c.pos⟩)
          fun r => readStatement .css parens r.1 r.2
      else if c.char = '/' ∧ startsWith '*' rest then
        (readComment (rest.take 1 ++ c :: buffer) (rest.drop 1)).elim
          (.error ⟨.unclosedComment, c.pos⟩) fun r => readStatement .css parens r.1 r.2
      else if c.char = '(' then readStatement .css (parens + 1) (c :: buffer) rest
      else if c.char = ')' then readStatement .css (parens - 1) (c :: buffer) rest
      else if parens = 0 ∧ (c.char = ';' ∨ c.char = '{' ∨ c.char = '}') then
        .ok (buffer, c :: rest)
      else readStatement .css parens (c :: buffer) rest := by
  rw [readStatement_cons]
  simp only [Flavor.css, Bool.false_eq_true, false_and, and_false, if_false, reduceCtorEq]

theorem readStatement_eq_css {parens : Nat} {buffer cells : List Cell} (plain : Plain flavor cells) :
    readStatement flavor parens buffer cells = readStatement .css parens buffer cells := by
  -- Of the cases those of a line comment and of an interpolation do not occur.
  fun_induction readStatement flavor parens buffer cells with
  | case1 => rw [readStatement]
  | case2 parens buffer c rest quote failed =>
    rw [readStatement_css_cons, if_pos quote, failed]
    rfl
  | case3 parens buffer c rest quote r read ih =>
    rw [readStatement_css_cons, if_pos quote, read, ih (plain.tail (readString_grows read).suffix)]
    rfl
  | case4 parens buffer c rest quote comment failed =>
    rw [readStatement_css_cons, if_neg quote, if_pos comment, failed]
    rfl
  | case5 parens buffer c rest quote comment r read ih =>
    have later := (readComment_grows read).suffix.trans (List.drop_suffix 1 rest)
    rw [readStatement_css_cons, if_neg quote, if_pos comment, read, ih (plain.tail later)]
    rfl
  | case6 parens buffer c rest quote comment line ih =>
    exact absurd ⟨line.1, line.2.2.1, line.2.2.2⟩ plain.comment.not_starts
  | case7 parens buffer c rest quote comment line braced failed =>
    exact absurd braced plain.not_braced
  | case8 parens buffer c rest quote comment line braced r read ih =>
    exact absurd braced plain.not_braced
  | case9 parens buffer c rest quote comment line braced opened ih =>
    rw [readStatement_css_cons, if_neg quote, if_neg comment, if_pos opened,
      ih (plain.tail List.suffix_rfl)]
  | case10 parens buffer c rest quote comment line braced opened closed ih =>
    rw [readStatement_css_cons, if_neg quote, if_neg comment, if_neg opened, if_pos closed,
      ih (plain.tail List.suffix_rfl)]
  | case11 parens buffer c rest quote comment line braced opened closed ended =>
    rw [readStatement_css_cons, if_neg quote, if_neg comment, if_neg opened, if_neg closed,
      if_pos ended]
  | case12 parens buffer c rest quote comment line braced opened closed ended ih =>
    rw [readStatement_css_cons, if_neg quote, if_neg comment, if_neg opened, if_neg closed,
      if_neg ended, ih (plain.tail List.suffix_rfl)]

namespace Piece

variable {c : Cell} {cells rest text : List Cell}

theorem ofCell_eq_css (plain : Plain flavor (c :: rest)) :
    ofCell flavor c rest = ofCell .css c rest := by
  have line : ¬(c.char = '/' ∧ Flavor.css.lineComments = true ∧ startsWith '/' rest = true) := by
    simp [Flavor.css]
  rw [ofCell, ofCell, readStatement_eq_css plain, if_neg plain.comment.not_starts, if_neg line]

theorem next_eq_css (plain : Plain flavor cells) : next flavor cells = next .css cells := by
  have later : cells.dropWhile isGap <:+ cells := List.dropWhile_suffix _
  unfold next
  generalize cells.dropWhile isGap = left at *
  cases left with
  | nil => rfl
  | cons c rest => simp only [ofCell_eq_css (plain.suffix later)]

theorem subset_of_ofCell (plain : NoLineComment flavor (c :: rest)) {after : List Cell}
    (read : ofCell flavor c rest = .ok (.statement text, after)) : text ⊆ c :: rest := by
  unfold ofCell at read
  split_ifs at read with closing opening block line
  · cases read
  · cases read
  · split at read <;> cases read
  · cases read
  · obtain ⟨r, collects, made⟩ := map_eq_ok_iff.1 read
    have whole : r.1.reverse ++ r.2 = c :: rest := readStatement_whole collects plain
    have within : collected r.1 ⊆ c :: rest := by
      rw [← whole]
      exact List.subset_append_of_subset_left _ (Text.trimWhile_isInfix _).subset
    unfold ofStatement at made
    split at made
    · cases made
      exact within
    · split_ifs at made
      all_goals cases made
      all_goals exact within

theorem subset_of_next (plain : NoLineComment flavor cells) {after : List Cell}
    (read : next flavor cells = .ok (some (.statement text, after))) : text ⊆ cells := by
  obtain ⟨c, rest, cut, made⟩ := next_eq_some_iff.1 read
  have later : c :: rest <:+ cells := cut ▸ List.dropWhile_suffix _
  exact fun d mem => later.subset (subset_of_ofCell (plain.suffix later) made mem)

end Piece

/-! ## Statements -/

theorem nodeOf_eq_css (mixins : flavor.mixins = false) (text : List Cell) :
    nodeOf flavor text = nodeOf .css text := by
  cases text with
  | nil => rfl
  | cons c rest =>
    rw [nodeOf, nodeOf, mixins]
    rfl

theorem nodeOf_of_css {text : List Cell} {n : Option Node} (bare : ∀ c ∈ text, c.char ≠ '@')
    (h : nodeOf .css text = .ok n) : nodeOf flavor text = .ok n := by
  cases text with
  | nil => exact h
  | cons c rest =>
    have first : ¬c.char = '@' := bare c List.mem_cons_self
    rw [nodeOf, if_neg first] at h ⊢
    split at h
    next colon => rwa [if_pos colon]
    · cases h

namespace Outline

variable {limit : Option Nat}

theorem add_eq_css (mixins : flavor.mixins = false) (o : Outline) (piece : Piece) :
    o.add flavor limit piece = o.add .css limit piece := by
  cases piece with
  | statement text => rw [add, add, nodeOf_eq_css mixins]
  | comment | opening | closing => rfl

theorem add_of_css {o o' : Outline} {piece : Piece}
    (bare : ∀ text, piece = .statement text → ∀ c ∈ text, c.char ≠ '@')
    (added : o.add .css limit piece = .ok o') : o.add flavor limit piece = .ok o' := by
  cases piece with
  | statement text =>
    rw [add] at added ⊢
    cases node : nodeOf .css text with
    | error e =>
      rw [node] at added
      cases added
    | ok n => rwa [nodeOf_of_css (bare text rfl) node, ← node]
  | comment | opening | closing => exact added

theorem readAll_eq_css (mixins : flavor.mixins = false) (o : Outline) {cells : List Cell}
    (plain : Plain flavor cells) : o.readAll flavor limit cells = o.readAll .css limit cells := by
  fun_induction readAll flavor limit o cells with
  | case1 o cells e failed =>
    rw [readAll_eq, ← Piece.next_eq_css plain, failed]
    rfl
  | case2 o cells done =>
    rw [readAll_eq, ← Piece.next_eq_css plain, done]
    rfl
  | case3 o cells piece rest read e failed =>
    rw [readAll_eq, ← Piece.next_eq_css plain, read]
    simp only [Except.bind, Option.elim_some, ← add_eq_css mixins, failed]
  | case4 o cells piece rest read mid added ih =>
    rw [ih (plain.suffix (Piece.suffix_next read)), readAll_eq o cells, ← Piece.next_eq_css plain,
      read]
    simp only [Except.bind, Option.elim_some, ← add_eq_css mixins, added]

theorem readAll_of_css {o : Outline} {cells : List Cell} {nodes : List Node}
    (plain : Plain flavor cells) (bare : ∀ c ∈ cells, c.char ≠ '@')
    (read : o.readAll .css limit cells = .ok nodes) :
    o.readAll flavor limit cells = .ok nodes := by
  fun_induction readAll .css limit o cells with
  | case1 | case3 => cases read
  | case2 o cells done =>
    rw [readAll_eq, Piece.next_eq_css plain, done]
    exact read
  | case4 o cells piece rest first mid added ih =>
    have later := Piece.suffix_next first
    have added' : o.add flavor limit piece = .ok mid := by
      refine add_of_css ?_ added
      rintro text rfl c mem
      rw [← Piece.next_eq_css plain] at first
      exact bare c (Piece.subset_of_next plain.comment first mem)
    rw [readAll_eq, Piece.next_eq_css plain, first]
    simp only [Except.bind, Option.elim_some, added']
    exact ih (plain.suffix later) (fun c mem => bare c (later.subset mem)) read

end Outline

/-! ## Sheets -/

theorem plain_ofChars {text : List Char} (comment : ¬['/', '/'] <:+: text)
    (interpolation : ∀ c, flavor.interpolation = some c → ¬[c, '{'] <:+: text) :
    Plain flavor (Cell.ofChars .start (Text.dropByteOrderMark text)) := by
  have within : Text.dropByteOrderMark text <:+: text := (Text.dropByteOrderMark_suffix text).isInfix
  constructor
  · intro _ inside
    rw [Cell.chars_ofChars] at inside
    exact comment (inside.trans within)
  · intro c opens inside
    rw [Cell.chars_ofChars] at inside
    exact interpolation c opens (inside.trans within)

/-- Without line comments and interpolations a text in the dialect with `#` has the tree, or the refusal,
of a plain style sheet. Without line comments and `@`, whatever is a plain style sheet is the same sheet
in the dialect with mixins, so that what is refused there is refused as a plain style sheet. -/
theorem parse_common_ground {text : String} (comment : ¬"//".toList <:+: text.toList) :
    (¬"#\x7b".toList <:+: text.toList → Dialect.scss.parse text = Dialect.css.parse text) ∧
    ('@' ∉ text.toList →
      (∀ sheet, Dialect.css.parse text = .ok sheet → Dialect.less.parse text = .ok sheet) ∧
      ∀ e, Dialect.less.parse text = .error e → ∃ e', Dialect.css.parse text = .error e') := by
  constructor
  · intro interpolation
    have plain : Plain .scss (Cell.ofChars .start (Text.dropByteOrderMark text.toList)) := by
      refine plain_ofChars comment ?_
      rintro c ⟨⟩
      exact interpolation
    simp only [Dialect.parse, Dialect.flavor?, parse, parseWithin, Outline.readAll_eq_css rfl _ plain]
  · intro bare
    have plain : Plain .less (Cell.ofChars .start (Text.dropByteOrderMark text.toList)) := by
      refine plain_ofChars comment ?_
      rintro c ⟨⟩ inside
      exact bare (inside.subset List.mem_cons_self)
    have bare' : ∀ c ∈ Cell.ofChars .start (Text.dropByteOrderMark text.toList), c.char ≠ '@' := by
      intro c mem at'
      apply bare
      apply (Text.dropByteOrderMark_suffix text.toList).subset
      rw [← Cell.chars_ofChars .start (Text.dropByteOrderMark text.toList), ← at']
      exact List.mem_map_of_mem mem
    have extends' : ∀ sheet, Dialect.css.parse text = .ok sheet →
        Dialect.less.parse text = .ok sheet := by
      intro sheet parsed
      obtain ⟨nodes, read, rfl⟩ := map_eq_ok_iff.1 parsed
      exact map_eq_ok_iff.2 ⟨nodes, Outline.readAll_of_css plain bare' read, rfl⟩
    refine ⟨extends', ?_⟩
    intro e refused
    cases parsed : Dialect.css.parse text with
    | error e' => exact ⟨e', rfl⟩
    | ok sheet =>
      rw [extends' sheet parsed] at refused
      cases refused

theorem parse_common_ground_declaration :
    ¬"//".toList <:+: ".a: #b".toList ∧ ¬"#\x7b".toList <:+: ".a: #b".toList ∧
    '@' ∉ ".a: #b".toList ∧
    Dialect.css.parse ".a: #b" = .ok ⟨[.declaration ⟨".a", "#b", false, ⟨1, 1⟩, ⟨1, 5⟩⟩]⟩ ∧
    Dialect.scss.parse ".a: #b" = .ok ⟨[.declaration ⟨".a", "#b", false, ⟨1, 1⟩, ⟨1, 5⟩⟩]⟩ ∧
    Dialect.less.parse ".a: #b" = .ok ⟨[.declaration ⟨".a", "#b", false, ⟨1, 1⟩, ⟨1, 5⟩⟩]⟩ := by
  have comment : ¬"//".toList <:+: ".a: #b".toList := by decide
  have interpolation : ¬"#\x7b".toList <:+: ".a: #b".toList := by decide
  have bare : '@' ∉ ".a: #b".toList := by decide
  have read : readStatement .css 0 [] (Cell.ofChars .start ".a: #b".toList) =
      .ok ((Cell.ofChars .start ".a: #b".toList).reverse, []) := by
    simp [readStatement, Flavor.css, Position.after]
  have parsed : Dialect.css.parse ".a: #b" =
      .ok ⟨[.declaration ⟨".a", "#b", false, ⟨1, 1⟩, ⟨1, 5⟩⟩]⟩ :=
    parse_of_statement rfl rfl (by decide) read rfl
  obtain ⟨scss, less⟩ := parse_common_ground comment
  exact ⟨comment, interpolation, bare, parsed, (scss interpolation).trans parsed,
    (less bare).1 _ parsed⟩

end SheetLint.Brace
