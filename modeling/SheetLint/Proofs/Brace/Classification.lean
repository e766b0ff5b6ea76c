import Mathlib.Data.List.TakeWhile
import SheetLint.Proofs.Brace.Placement
import SheetLint.Rule.NoDuplicateProperties

/-!
Which statements without a block are declarations. The reader takes the first colon of a statement for
the one that ends the property, wherever it stands; in a mixin call with named arguments this is a colon
between parentheses. The flat scan tells which colons stand outside of strings, comments,
interpolations and parentheses (`Scan.outside`), and a statement is read as these colons say exactly if
its first colon, where it has one, is one of them.
-/

namespace SheetLint

namespace Brace

open Scan

/-- The cells that the scan passes outside of strings, comments, interpolations and parentheses. -/
def Scan.outside (flavor : Flavor) (s : State) : List Cell → List Cell
  | [] => []
  | c :: rest =>
    let later := match s.step flavor c (rest.head?.map Cell.char) with
      | none => []
      | some (_, t) => outside flavor t rest
    if s.mode = .plain ∧ s.parens = 0 then c :: later else later

def Scan.free (flavor : Flavor) (text : List Char) : List Cell :=
  outside flavor .start (Cell.ofChars .start text)

/-- Whether a statement without a block is read as some cells say that separate a property from its
value: it is a declaration if it has such a cell, and its property ends before the first; otherwise the
whole text is the selector of a mixin call. -/
def ReadBy (separates : Cell → Prop) (text : List Cell) : Node → Prop
  | .declaration d => ∃ before colon after, text = before ++ colon :: after ∧ separates colon ∧
      (∀ c ∈ before, ¬separates c) ∧ d.prop = Cell.text (Text.trimWhile Cell.isBlank before)
  | .statement (.selector selector) _ =>
    (∀ c ∈ text, ¬separates c) ∧ selector = Cell.text (Text.trimWhile Cell.isBlank text)
  | _ => False

def IsColon (c : Cell) : Prop :=
  c.char = ':'

instance : DecidablePred IsColon := fun c => inferInstanceAs (Decidable (c.char = ':'))

/-- Whether a node is what its item says by the first colon, which is what the colons among the cells
`free` say exactly if the first colon is one of them. Statements that begin with `@` are left out. -/
def Classified (free : List Cell) : Item → Node → Prop
  | .statement text _, n => text.head?.map Cell.char ≠ some '@' →
    ReadBy IsColon text n ∧ (ReadBy (fun c => IsColon c ∧ c ∈ free) text n ↔
      ∀ colon, text.find? (·.char == ':') = some colon → colon ∈ free)
  | _, _ => True

theorem classified_bare {free : List Cell} {i : Item} {n : Node} :
    Classified free i n.bare ↔ Classified free i n := by
  cases i <;> cases n <;> rfl

/-! ## Colons -/

theorem find?_eq_colon_iff {text : List Cell} {colon : Cell} :
    text.find? (·.char == ':') = some colon ↔ ∃ before after, text = before ++ colon :: after ∧
      IsColon colon ∧ ∀ c ∈ before, ¬IsColon c := by
  simp [List.find?_eq_some_iff_append, IsColon, and_left_comm]

theorem exists_colon_of_prop_eq {before before' : List Cell}
    (same : Cell.text (Text.trimWhile Cell.isBlank before) =
      Cell.text (Text.trimWhile Cell.isBlank before'))
    (colon : ∃ c ∈ before, IsColon c) : ∃ c ∈ before', IsColon c := by
  have chars := String.ofList_injective same
  obtain ⟨c, mem, char⟩ := (exists_colon_trimWhile before).2 colon
  have mem' : ':' ∈ Cell.chars (Text.trimWhile Cell.isBlank before') := by
    rw [← chars, ← char]
    exact List.mem_map_of_mem mem
  obtain ⟨c', mem', char'⟩ := List.mem_map.1 mem'
  exact (exists_colon_trimWhile before').1 ⟨c', mem', char'⟩

theorem readBy_free_iff {free text : List Cell} {n : Node} (read : ReadBy IsColon text n) :
    ReadBy (fun c => IsColon c ∧ c ∈ free) text n ↔
      ∀ colon, text.find? (·.char == ':') = some colon → colon ∈ free := by
  cases n with
  | comment | block => exact read.elim
  | declaration d =>
    obtain ⟨before, colon, after, split, char, bare, prop⟩ := read
    have first : text.find? (·.char == ':') = some colon :=
      find?_eq_colon_iff.2 ⟨before, after, split, char, bare⟩
    constructor
    · rintro ⟨before', colon', after', split', ⟨char', inFree⟩, -, prop'⟩ c found
      have bare' : ∀ c ∈ before', ¬IsColon c := by
        intro c mem char
        obtain ⟨d, mem, char⟩ := exists_colon_of_prop_eq (prop'.symm.trans prop) ⟨c, mem, char⟩
        exact bare d mem char
      have first' := find?_eq_colon_iff.2 ⟨before', after', split', char', bare'⟩
      cases found.symm.trans first'
      exact inFree
    · intro inFree
      refine ⟨before, colon, after, split, ⟨char, inFree colon first⟩, ?_, prop⟩
      intro c mem separates
      exact bare c mem separates.1
  | statement prelude start =>
    cases prelude with
    | atRule => exact read.elim
    | selector selector =>
      constructor
      · intro _ colon found
        obtain ⟨before, after, rfl, char, -⟩ := find?_eq_colon_iff.1 found
        exact absurd char (read.1 colon (by simp))
      · intro _
        exact ⟨fun c mem separates => read.1 c mem separates.1, read.2⟩

theorem exists_nodeOf {flavor : Flavor} {text : List Cell} (begun : Begun text)
    (known : IsStatement flavor text) :
    ∃ n, nodeOf flavor (Text.trimWhile Cell.isBlank text) = .ok (some n) := by
  obtain ⟨made, node⟩ := (nodeOf_ok_iff begun).2 known
  obtain ⟨first, more, rfl, kept⟩ := begun
  obtain ⟨rest, trimmed⟩ := List.head?_eq_some_iff.1 (Text.head?_trimWhile kept more)
  rw [trimmed, nodeOf] at node ⊢
  split_ifs at node ⊢
  · exact ⟨_, rfl⟩
  · exact ⟨_, rfl⟩
  · exact ⟨_, rfl⟩
  · exact ⟨_, rfl⟩

theorem nodeOf_readBy {flavor : Flavor} {text : List Cell} {n : Node} (begun : Begun text)
    (node : nodeOf flavor (Text.trimWhile Cell.isBlank text) = .ok (some n))
    (plain : text.head?.map Cell.char ≠ some '@') : ReadBy IsColon text n := by
  obtain ⟨first, more, rfl, kept⟩ := begun
  obtain ⟨rest, trimmed⟩ := List.head?_eq_some_iff.1 (Text.head?_trimWhile kept more)
  have whole : first :: rest <+: first :: more := by
    rw [← trimmed, Text.trimWhile_cons kept]
    exact Text.dropEndWhile_isPrefix _
  have other : first.char ≠ '@' := by simpa using plain
  rw [trimmed, nodeOf, if_neg other] at node
  split_ifs at node with colon mixin
  · cases node
    have assigns : ∃ c ∈ first :: rest, c.char = ':' := by simpa using colon
    obtain ⟨before, colon, after, split, char, taken, -, -⟩ := exists_split_colon assigns
    obtain ⟨blanks, text⟩ := whole
    refine ⟨before, colon, after ++ blanks, ?_, char, ?_, ?_⟩
    · rw [← text, split, List.append_assoc, List.cons_append]
    · intro c mem
      rw [← taken] at mem
      simpa [IsColon] using List.mem_takeWhile_imp mem
    · rw [← taken]
      rfl
  · cases node
    refine ⟨?_, by rw [trimmed]⟩
    have absent : ¬∃ c ∈ Text.trimWhile Cell.isBlank (first :: more), c.char = ':' := by
      rw [trimmed]
      simpa using colon
    rw [exists_colon_trimWhile] at absent
    intro c mem char
    exact absent ⟨c, mem, char⟩

/-! ## Duplicates -/

theorem mem_of_mem_duplicatesAfter {seen : List (List Char)} {nodes : List Node} {f : Finding}
    (mem : f ∈ Rule.duplicatesAfter seen nodes) :
    ∃ d, .declaration d ∈ nodes ∧ f = Rule.duplicate d := by
  fun_induction Rule.duplicatesAfter seen nodes with
  | case1 => cases mem
  | case2 seen d nodes variable' ih =>
    obtain ⟨d', among, rfl⟩ := ih mem
    exact ⟨d', .tail _ among, rfl⟩
  | case3 seen d nodes p property again ih =>
    rcases List.mem_cons.1 mem with rfl | mem
    · exact ⟨d, List.mem_cons_self, rfl⟩
    · obtain ⟨d', among, rfl⟩ := ih mem
      exact ⟨d', .tail _ among, rfl⟩
  | case4 seen d nodes p property fresh ih =>
    obtain ⟨d', among, rfl⟩ := ih mem
    exact ⟨d', .tail _ among, rfl⟩
  | case5 seen n nodes other ih =>
    obtain ⟨d', among, rfl⟩ := ih mem
    exact ⟨d', .tail _ among, rfl⟩

theorem begins_classified {flavor : Flavor} {free : List Cell} {i : Item} {p : Piece}
    (reads : i.Reads p) (known : ∀ text ending, .statement text ending = i → IsStatement flavor text) :
    List.Forall₂ (Classified free) ([i].filter (!·.isClosing)) (p.begins flavor) := by
  cases i with
  | comment slash inline =>
    obtain ⟨c, rfl, -⟩ := reads.eq_comment
    exact .cons trivial .nil
  | statement text ending =>
    obtain ⟨begun, rfl⟩ := reads.eq_statement
    obtain ⟨n, node⟩ := exists_nodeOf begun (known text ending rfl)
    simp only [Piece.begins, node]
    refine .cons ?_ .nil
    intro plain
    have read := nodeOf_readBy begun node plain
    exact ⟨read, readBy_free_iff read⟩
  | opening text brace =>
    rw [reads.eq_opening.2]
    exact .cons trivial .nil
  | closing brace =>
    rw [reads.eq_closing]
    exact .nil

theorem written_of_parse {d : Dialect} {flavor : Flavor} (h : d.flavor? = some flavor) {text : String}
    {sheet : Sheet} (parsed : d.parse text = .ok sheet) :
    ∃ is ps, Scan.items flavor (Text.dropByteOrderMark text.toList) = some is ∧
      List.Forall₂ Item.Reads is ps ∧ Accepted flavor Sheet.maxNesting is ∧
      ∀ {α : Type} (w : Writer α), w.all sheet.nodes = ps.flatMap (Piece.write w flavor) := by
  have scanned := scan_eq_pieces (ordinary_of_flavor? h)
    (Cell.ofChars .start (Text.dropByteOrderMark text.toList))
  simp only [Dialect.parse, h, parse] at parsed
  obtain ⟨ps, read, -, written⟩ := write_parseWithin parsed
  obtain ⟨ps', read', completes⟩ := (parseWithin_ok_iff text.toList).1 ⟨sheet, parsed⟩
  cases read.symm.trans read'
  simp only [read] at scanned
  obtain ⟨is, found, reads⟩ := scanned
  exact ⟨is, ps, found, reads, (accepted_iff is).2 ((completes_iff reads _).1 completes), written⟩

theorem reads_of_parse {d : Dialect} {flavor : Flavor} (h : d.flavor? = some flavor) {text : String}
    {sheet : Sheet} (parsed : d.parse text = .ok sheet) :
    ∃ is ps, Scan.items flavor (Text.dropByteOrderMark text.toList) = some is ∧
      List.Forall₂ Item.Reads is ps ∧
      sheet.walk.map Node.bare = ps.flatMap (Piece.begins flavor) ∧
      ∀ text ending, .statement text ending ∈ is → IsStatement flavor text := by
  obtain ⟨is, ps, found, reads, accepted, written⟩ := written_of_parse h parsed
  refine ⟨is, ps, found, reads, ?_, accepted.statements⟩
  rw [Sheet.walk, ← Writer.all_preorder, written, Piece.write_preorder]

/-- Every statement without a block is read as its first colon says, which is what its colons outside of
strings, comments, interpolations and parentheses say if and only if the first colon, where there is
one, is one of them. A property that is reported as set twice stands in a statement with a colon. -/
theorem parse_classified {d : Dialect} {flavor : Flavor} (h : d.flavor? = some flavor)
    {text : String} {sheet : Sheet} (parsed : d.parse text = .ok sheet) :
    ∃ is, Scan.items flavor (Text.dropByteOrderMark text.toList) = some is ∧
      List.Forall₂ (Classified (Scan.free flavor (Text.dropByteOrderMark text.toList)))
        (is.filter (!·.isClosing)) sheet.walk ∧
      ∀ f ∈ sheet.containers.flatMap (Rule.duplicatesAfter []), ∃ first rest ending,
        .statement (first :: rest) ending ∈ is ∧ first.pos = f.pos ∧
          ∃ c ∈ first :: rest, IsColon c := by
  obtain ⟨is, ps, found, reads, walk, known⟩ := reads_of_parse h parsed
  refine ⟨is, found, ?_, ?_⟩
  · have classified : List.Forall₂
        (Classified (Scan.free flavor (Text.dropByteOrderMark text.toList)))
        (is.filter (!·.isClosing)) (ps.flatMap (Piece.begins flavor)) := by
      apply forall₂_begins reads
      intro i mem p read
      apply begins_classified read
      rintro text ending rfl
      exact known text ending mem
    rw [← walk, List.forall₂_map_right_iff] at classified
    simpa only [classified_bare] using classified
  · intro f mem
    obtain ⟨nodes, container, duplicate⟩ := List.mem_flatMap.1 mem
    obtain ⟨d, among, rfl⟩ := mem_of_mem_duplicatesAfter duplicate
    have within := scan_in (ofChars_chain _ _) (holds_start [] _) found
    have placed := begins_all_placed reads within known
    rw [← walk, List.forall₂_map_right_iff] at placed
    obtain ⟨i, item, stands⟩ :=
      exists_of_forall₂ placed (Sheet.mem_walk_of_container container among)
    cases i with
    | statement text ending =>
      obtain ⟨⟨first, head, -, start, -⟩, colon, found, -⟩ := stands
      obtain ⟨rest, rfl⟩ := List.head?_eq_some_iff.1 head
      have char := List.find?_some found
      exact ⟨first, rest, ending, (List.mem_filter.1 item).1, start.symm, colon,
        List.mem_of_find?_eq_some found, eq_of_beq char⟩
    | _ => exact stands.elim

theorem parse_classified_call :
    Dialect.less.flavor? = some .less ∧
    Dialect.less.parse ".m(a)" = .ok ⟨[.statement (.selector ".m(a)") ⟨1, 1⟩]⟩ ∧
    ∃ is, Scan.items .less ".m(a)".toList = some is ∧
      List.Forall₂ (Classified (Scan.free .less ".m(a)".toList)) (is.filter (!·.isClosing))
        [.statement (.selector ".m(a)") ⟨1, 1⟩] := by
  have read : readStatement .less 0 [] (Cell.ofChars .start ".m(a)".toList) =
      .ok ((Cell.ofChars .start ".m(a)".toList).reverse, []) := by
    simp [readStatement, Flavor.less, startsWith]
  have parsed : Dialect.less.parse ".m(a)" = .ok ⟨[.statement (.selector ".m(a)") ⟨1, 1⟩]⟩ :=
    parse_of_statement rfl rfl (by decide) read rfl
  obtain ⟨is, found, classified, -⟩ := parse_classified rfl parsed
  exact ⟨rfl, parsed, is, found, classified⟩

theorem parse_named_argument :
    ∃ d e, Dialect.less.parse ".m(@a:1);.m(@a:2)" = .ok ⟨[.declaration d, .declaration e]⟩ ∧
      d.prop = ".m(@a" ∧ e.prop = ".m(@a" ∧
      Rule.duplicatesAfter [] [.declaration d, .declaration e] = [Rule.duplicate e] ∧
      ∀ c ∈ Scan.free .less ".m(@a:1);.m(@a:2)".toList, ¬IsColon c := by
  have first : readStatement .less 0 [] (Cell.ofChars .start ".m(@a:1);.m(@a:2)".toList) =
      .ok ((Cell.ofChars .start ".m(@a:1)".toList).reverse,
        Cell.ofChars ⟨1, 9⟩ ";.m(@a:2)".toList) := by
    simp [readStatement, Flavor.less, startsWith, Position.start, Position.after]
  have second : readStatement .less 0 [] (Cell.ofChars ⟨1, 10⟩ ".m(@a:2)".toList) =
      .ok ((Cell.ofChars ⟨1, 10⟩ ".m(@a:2)".toList).reverse, []) := by
    simp [readStatement, Flavor.less, startsWith, Position.after]
  have call : Piece.next .less (Cell.ofChars .start ".m(@a:1);.m(@a:2)".toList) =
      .ok (some (.statement (Cell.ofChars .start ".m(@a:1)".toList),
        Cell.ofChars ⟨1, 10⟩ ".m(@a:2)".toList)) := by
    rw [next_of_head rfl rfl (by decide), first]
    rfl
  have call' : Piece.next .less (Cell.ofChars ⟨1, 10⟩ ".m(@a:2)".toList) =
      .ok (some (.statement (Cell.ofChars ⟨1, 10⟩ ".m(@a:2)".toList), [])) := by
    rw [next_of_head rfl rfl (by decide), second]
    rfl
  have ended : pieces .less [] = .ok [] := pieces_of_none rfl
  have whole : pieces .less (Cell.ofChars .start ".m(@a:1);.m(@a:2)".toList) =
      .ok [.statement (Cell.ofChars .start ".m(@a:1)".toList),
        .statement (Cell.ofChars ⟨1, 10⟩ ".m(@a:2)".toList)] := by
    rw [pieces_of_some call, pieces_of_some call', ended]
    rfl
  refine ⟨⟨".m(@a", "1)", false, ⟨1, 1⟩, ⟨1, 7⟩⟩, ⟨".m(@a", "2)", false, ⟨1, 10⟩, ⟨1, 16⟩⟩, ?_, rfl,
    rfl, by decide, by decide⟩
  exact map_eq_ok_iff.2 ⟨_, (Outline.readAll_eq_ok_iff _ _ _).2 ⟨_, _, whole, rfl, rfl⟩, rfl⟩

end Brace

end SheetLint
