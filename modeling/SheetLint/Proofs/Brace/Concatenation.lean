import SheetLint.Parse
import SheetLint.Proofs.Brace.Acceptance
import SheetLint.Proofs.Brace.Continuation
import SheetLint.Proofs.Brace.Relocation

namespace SheetLint

def Position.following (before : String) : Position → Position :=
  (Position.start.advance (Text.dropByteOrderMark before.toList)).moved

theorem Position.following_column (before : String) (p : Position) :
    following before ⟨p.line, p.column + 1⟩ =
      ⟨(following before p).line, (following before p).column + 1⟩ :=
  moved_column _ p

namespace Brace

open Scan

variable {flavor : Flavor}

/-- Whether the last character of a text that is not blank is a `;` or a closing brace which the scan
meets outside of all constructs. -/
def Concludes (flavor : Flavor) (text : List Char) : Prop :=
  ∃ before c blanks is collected, text = before ++ c :: blanks ∧ (c = ';' ∨ c = '}') ∧
    (∀ b ∈ blanks, Text.isBlank b = true) ∧
    run flavor .start (some c) (Cell.ofChars .start before) = some (is, ⟨.plain, 0, collected⟩)

theorem Concludes.settled (ordinary : Ordinary flavor) {text : List Char} (h : Concludes flavor text) :
    ∃ is, Settled flavor (Cell.ofChars .start text) is := by
  obtain ⟨before, c, blanks, is, collected, rfl, mark, blank, before'⟩ := h
  have gaps (p : Position) : ∀ d ∈ Cell.ofChars p blanks, Piece.isGap d = true := by
    intro d mem
    obtain ⟨cs, ds, rfl, -⟩ := mem_ofChars mem
    simp [Piece.isGap, Cell.isBlank, blank]
  let mark' : Cell := ⟨c, Position.start.advance before⟩
  -- The mark ends what has been collected, and the blanks after it are a gap.
  obtain ⟨last, ends⟩ : ∃ last, ∀ next,
      (⟨.plain, 0, collected⟩ : State).stepPlain flavor mark' next = (last, .start) := by
    rcases mark with rfl | rfl
    · exact ⟨_, fun next => stepPlain_semicolon ordinary collected rfl⟩
    · exact ⟨_, fun next => stepPlain_closing ordinary collected rfl⟩
  refine ⟨is ++ last, fun more => ?_⟩
  rw [ofChars_append, Cell.ofChars_cons, List.append_assoc, List.cons_append, scan_of_run before',
    scan_plain (ends _), scan_gap ordinary, List.dropWhile_append_of_pos (gaps _), ← scan_gap ordinary,
    Option.map_map]
  simp only [Function.comp_def, List.append_assoc]

theorem Outline.eq_of_finish {o : Outline} {nodes : List Node} (h : o.finish = .ok nodes) :
    o = ⟨nodes.reverse, []⟩ := by
  obtain ⟨built, blocks⟩ := o
  cases blocks with
  | nil =>
    cases h
    rw [List.reverse_reverse]
  | cons => cases h

theorem Outline.readAll_concat {limit : Option Nat} {cells : List Cell} {nodes : List Node}
    {is : List Item} {f : Position → Position} (ordinary : Ordinary flavor)
    (settled : Settled flavor cells is) (read : empty.readAll flavor limit cells = .ok nodes)
    (column : ∀ p, f ⟨p.line, p.column + 1⟩ = ⟨(f p).line, (f p).column + 1⟩) (more : List Cell) :
    empty.readAll flavor limit (cells ++ more.map (Cell.relocate f)) =
      ((empty.readAll flavor limit more).map fun later => nodes ++ later.map (Node.relocate f)).mapError
        (ParseError.relocate f) := by
  obtain ⟨o, finished, later⟩ := readAll_append ordinary settled read
  have below : o = empty.relocate f nodes.reverse := by
    rw [eq_of_finish finished]
    rfl
  rw [later, below, readAll_relocate column, List.reverse_reverse]

/-- A text that ends with a whole statement or block, and a text after it: the nodes of the second come
after those of the first, and an error in the second stays the same, with all places moved by what the
first text takes. -/
theorem parse_append {d : Dialect} (h : d.flavor? = some flavor) {a b : String} {sheet : Sheet}
    (parsed : d.parse a = .ok sheet) (concludes : Concludes flavor (Text.dropByteOrderMark a.toList))
    (bare : b.toList.head? ≠ some '\uFEFF') :
    (∀ more, d.parse b = .ok more → d.parse (a ++ b) =
      .ok ⟨sheet.nodes ++ more.nodes.map (Node.relocate (Position.following a))⟩) ∧
    ∀ e, d.parse b = .error e → d.parse (a ++ b) = .error (e.relocate (Position.following a)) := by
  have ordinary := ordinary_of_flavor? h
  obtain ⟨is, settled⟩ := concludes.settled ordinary
  have nonempty : a.toList ≠ [] := by
    intro empty
    obtain ⟨before, c, blanks, -, -, whole, -⟩ := concludes
    simp [empty, Text.dropByteOrderMark] at whole
  have cells : Cell.ofChars .start (Text.dropByteOrderMark (a ++ b).toList) =
      Cell.ofChars .start (Text.dropByteOrderMark a.toList) ++
        (Cell.ofChars .start b.toList).map (Cell.relocate (Position.following a)) := by
    rw [String.toList_append, Text.dropByteOrderMark_append fun no => absurd no nonempty, ofChars_append,
      ofChars_moved]
    rfl
  simp only [Dialect.parse, h, parse, parseWithin, cells, Text.dropByteOrderMark_of_bare bare] at parsed ⊢
  obtain ⟨nodes, read, rfl⟩ := map_eq_ok_iff.1 parsed
  rw [Outline.readAll_concat ordinary settled read (Position.following_column a)]
  constructor
  · intro more accepted
    obtain ⟨later, read', rfl⟩ := map_eq_ok_iff.1 accepted
    rw [read']
    rfl
  · intro e refused
    cases read' : Outline.empty.readAll flavor (some Sheet.maxNesting) (Cell.ofChars .start b.toList) with
    | ok later =>
      rw [read'] at refused
      cases refused
    | error e' =>
      rw [read'] at refused
      cases refused
      rfl

theorem parse_append_block :
    Dialect.css.parse "\x7b\x7d\n" = .ok ⟨[.block (.selector "") ⟨1, 1⟩ ⟨1, 1⟩ []]⟩ ∧
    Concludes .css "\x7b\x7d\n".toList ∧
    Dialect.css.parse "c:d" = .ok ⟨[.declaration ⟨"c", "d", false, ⟨1, 1⟩, ⟨1, 3⟩⟩]⟩ ∧
    Dialect.css.parse "\x7b\x7d\nc:d" =
      .ok ⟨[.block (.selector "") ⟨1, 1⟩ ⟨1, 1⟩ [],
        .declaration ⟨"c", "d", false, ⟨2, 1⟩, ⟨2, 3⟩⟩]⟩ := by
  have block : Dialect.css.parse "\x7b\x7d\n" = .ok ⟨[.block (.selector "") ⟨1, 1⟩ ⟨1, 1⟩ []]⟩ := by
    have opening : Piece.next .css (Cell.ofChars .start "\x7b\x7d\n".toList) =
        .ok (some (.opening [] ⟨1, 1⟩, Cell.ofChars ⟨1, 2⟩ "\x7d\n".toList)) := rfl
    have closing : Piece.next .css (Cell.ofChars ⟨1, 2⟩ "\x7d\n".toList) =
        .ok (some (.closing ⟨1, 2⟩, Cell.ofChars ⟨1, 3⟩ "\n".toList)) := rfl
    have ended : pieces .css (Cell.ofChars ⟨1, 3⟩ "\n".toList) = .ok [] := pieces_of_none rfl
    have whole : pieces .css (Cell.ofChars .start "\x7b\x7d\n".toList) =
        .ok [.opening [] ⟨1, 1⟩, .closing ⟨1, 2⟩] := by
      rw [pieces_of_some opening, pieces_of_some closing, ended]
      rfl
    exact map_eq_ok_iff.2 ⟨_, (Outline.readAll_eq_ok_iff _ _ _).2 ⟨_, _, whole, rfl, rfl⟩, rfl⟩
  have concludes : Concludes .css "\x7b\x7d\n".toList :=
    ⟨['{'], '}', ['\n'], _, _, rfl, .inr rfl, fun _ mem => List.mem_singleton.1 mem ▸ rfl, rfl⟩
  have read : readStatement .css 0 [] (Cell.ofChars .start "c:d".toList) =
      .ok ((Cell.ofChars .start "c:d".toList).reverse, []) := by
    simp [readStatement, Flavor.css, startsWith]
  have declaration : Dialect.css.parse "c:d" =
      .ok ⟨[.declaration ⟨"c", "d", false, ⟨1, 1⟩, ⟨1, 3⟩⟩]⟩ :=
    parse_of_statement rfl rfl (by decide) read rfl
  exact ⟨block, concludes, declaration, (parse_append rfl block concludes (by decide)).1 _ declaration⟩

end Brace

end SheetLint
