import SheetLint.Proofs.Brace.Acceptance
import SheetLint.Proofs.Brace.Collected

namespace SheetLint

namespace Brace

open Scan

def StartsAt (source : List Char) (text : List Cell) (start : Position) : Prop :=
  ∃ first, text.head? = some first ∧ first.isBlank = false ∧ start = first.pos ∧
    charAt? source start = some first.char

/-- Whether the value of a declaration stands between the colon at `colon` and the end of the
statement at `stop`: each character but newlines is found at the place computed for it, and these
places increase. -/
structure ValuePlaced (source : List Char) (colon stop : Position) (d : Declaration) : Prop where
  colon_char : charAt? source colon = some ':'
  char : ∀ i c, d.CharAt i c → c ≠ '\n' → charAt? source (d.valuePosition i) = some c
  after_colon : ∀ i c, d.CharAt i c → c ≠ '\n' → colon.Before (d.valuePosition i)
  before_stop : ∀ i c, d.CharAt i c → c ≠ '\n' → (d.valuePosition i).Before stop
  increasing : ∀ i j b c, d.CharAt i b → d.CharAt j c → b ≠ '\n' → c ≠ '\n' → i < j →
    (d.valuePosition i).Before (d.valuePosition j)
  empty : d.value = "" → d.important = false → d.valueStart = ⟨colon.line, colon.column + 1⟩

def stopOf (source : List Char) (ending : Option Cell) : Position :=
  (ending.map Cell.pos).getD (Position.start.advance source)

/-- Whether a node stands where an item of the scan does. -/
def Placed (source : List Char) : Item → Node → Prop
  | .comment slash inline, .comment c =>
    c.start = slash.pos ∧ c.inline = inline ∧ charAt? source c.start = some '/' ∧
      charAt? source ⟨c.start.line, c.start.column + 1⟩ = some (if inline then '/' else '*')
  | .statement text _, .statement _ start => StartsAt source text start
  | .statement text ending, .declaration d =>
    StartsAt source text d.start ∧ ∃ colon, text.find? (·.char == ':') = some colon ∧
      ValuePlaced source colon.pos (stopOf source ending) d
  | .opening text brace, .block _ start opener _ =>
    opener = brace.pos ∧ charAt? source opener = some '{' ∧
      if text = [] then start = opener else StartsAt source text start
  | _, _ => False

theorem placed_bare {source : List Char} {i : Item} {n : Node} :
    Placed source i n.bare ↔ Placed source i n := by
  cases i <;> cases n <;> rfl

def Scan.Item.isClosing : Item → Bool
  | .closing _ => true
  | _ => false

/-! ## Values -/

def valueCells (text : List Cell) : List Cell :=
  Text.trimWhile Cell.isBlank ((text.dropWhile (·.char != ':')).drop 1)

theorem exists_split_colon {text : List Cell} (h : ∃ c ∈ text, c.char = ':') :
    ∃ before colon after, text = before ++ colon :: after ∧ colon.char = ':' ∧
      text.takeWhile (·.char != ':') = before ∧ text.dropWhile (·.char != ':') = colon :: after ∧
      text.find? (·.char == ':') = some colon := by
  induction text with
  | nil => simp at h
  | cons c text ih =>
    by_cases first : c.char = ':'
    · exact ⟨[], c, text, rfl, first, by simp [first], by simp [first], by simp [first]⟩
    · obtain ⟨before, colon, after, rfl, char, taken, dropped, found⟩ :=
        ih (by simpa [first] using h)
      exact ⟨c :: before, colon, after, rfl, char, by simpa [first] using taken,
        by simpa [first] using dropped, by simpa [first] using found⟩

theorem declarationOf_eq {first colon : Cell} {rest before after : List Cell}
    (split : first :: rest = before ++ colon :: after) (char : colon.char = ':')
    (plain : ∀ c ∈ before, c.char ≠ ':') :
    (declarationOf first rest).prop = Cell.text (Text.trimWhile Cell.isBlank before) ∧
      valueCells (first :: rest) = Text.trimWhile Cell.isBlank after := by
  have taken : ∀ c ∈ before, (c.char != ':') = true := by simpa using plain
  constructor
  · simp only [declarationOf, split, List.takeWhile_append_of_pos taken]
    simp [char]
  · rw [valueCells, split, List.dropWhile_append_of_pos taken]
    simp [char]

section Declaration

variable {first colon : Cell} {rest after : List Cell}

theorem value_isPrefix (first : Cell) (rest : List Cell) :
    (declarationOf first rest).value.toList <+: Cell.chars (valueCells (first :: rest)) := by
  rw [declarationOf, String.toList_ofList]
  exact splitImportant_isPrefix _

theorem valueStart_eq {c : Cell} {cells : List Cell} (value : valueCells (first :: rest) = c :: cells) :
    (declarationOf first rest).valueStart = c.pos := by
  unfold valueCells at value
  simp only [declarationOf, value]

theorem valueStart_of_nil (dropped : (first :: rest).dropWhile (·.char != ':') = colon :: after)
    (value : valueCells (first :: rest) = []) :
    (declarationOf first rest).valueStart = ⟨colon.pos.line, colon.pos.column + 1⟩ := by
  rw [valueCells, dropped] at value
  simp only [declarationOf, dropped, value]

theorem valueCells_eq_nil (empty : (declarationOf first rest).value = "")
    (plain : (declarationOf first rest).important = false) : valueCells (first :: rest) = [] := by
  have chars : Cell.chars (valueCells (first :: rest)) = [] :=
    (eq_of_splitImportant plain).symm.trans (String.ofList_eq_empty_iff.1 empty)
  exact List.map_eq_nil_iff.1 chars

theorem exists_cell_of_charAt (chain : (valueCells (first :: rest)).IsChain Follows) {i : Nat}
    {c : Char} (at' : (declarationOf first rest).CharAt i c) (plain : c ≠ '\n') :
    ∃ k cell, (valueCells (first :: rest))[k]? = some cell ∧ cell.char = c ∧
      i = (String.ofList ((declarationOf first rest).value.toList.take k)).utf8ByteSize ∧
      (declarationOf first rest).valuePosition i = cell.pos := by
  obtain ⟨k, found, rfl⟩ := at'
  obtain ⟨more, split⟩ := value_isPrefix first rest
  have inside : k < (declarationOf first rest).value.toList.length :=
    (List.getElem?_eq_some_iff.1 found).1
  have char : (Cell.chars (valueCells (first :: rest)))[k]? = some c := by
    rw [← split, List.getElem?_append_left inside, found]
  rw [Cell.chars, List.getElem?_map, Option.map_eq_some_iff] at char
  obtain ⟨cell, there, rfl⟩ := char
  refine ⟨k, cell, there, rfl, rfl, ?_⟩
  have taken : (declarationOf first rest).value.toList.take k =
      Cell.chars ((valueCells (first :: rest)).take k) := by
    rw [Cell.chars, List.map_take, ← Cell.chars, ← split, List.take_append_of_le_length inside.le]
  rw [Declaration.valuePosition_eq (List.take_append_drop k _).symm, taken]
  cases value : valueCells (first :: rest) with
  | nil => simp [value] at there
  | cons b cells =>
    rw [value] at chain there
    rw [valueStart_eq value]
    have cut : b :: cells = (b :: cells).take k ++ cell :: (b :: cells).drop (k + 1) := by
      obtain ⟨short, rfl⟩ := List.getElem?_eq_some_iff.1 there
      rw [List.getElem_cons_drop, List.take_append_drop]
    exact (advance_of_follows chain cut rfl fun _ => rfl).2 plain

theorem lt_of_utf8ByteSize_take_lt {cs : List Char} {k l : Nat}
    (h : (String.ofList (cs.take k)).utf8ByteSize < (String.ofList (cs.take l)).utf8ByteSize) :
    k < l := by
  by_contra later
  obtain ⟨more, split⟩ : cs.take l <+: cs.take k := List.take_prefix_take_left (Nat.not_lt.1 later)
  rw [← split, String.ofList_append, String.utf8ByteSize_append] at h
  omega

theorem declarationOf_increasing (chain : (valueCells (first :: rest)).IsChain Follows)
    (pairs : (valueCells (first :: rest)).Pairwise fun a b => a.pos.Before b.pos) :
    (declarationOf first rest).Increasing := by
  intro i j b c at' at'' plain plain' lt
  obtain ⟨k, cell, there, -, rfl, pos⟩ := exists_cell_of_charAt chain at' plain
  obtain ⟨l, cell', there', -, rfl, pos'⟩ := exists_cell_of_charAt chain at'' plain'
  obtain ⟨hk, rfl⟩ := List.getElem?_eq_some_iff.1 there
  obtain ⟨hl, rfl⟩ := List.getElem?_eq_some_iff.1 there'
  rw [pos, pos']
  exact List.pairwise_iff_getElem.1 pairs k l hk hl (lt_of_utf8ByteSize_take_lt lt)

end Declaration

/-! ## Items and their nodes -/

section Items

variable {source : List Char} {text : List Cell} {ending : Option Cell}

theorem startsAt_of_begun (begun : Begun text)
    (within : List.Sublist text (Cell.ofChars .start source)) :
    ∃ first rest, Text.trimWhile Cell.isBlank text = first :: rest ∧ first :: rest <+: text ∧
      StartsAt source text first.pos := by
  obtain ⟨first, more, rfl, kept⟩ := begun
  obtain ⟨rest, trimmed⟩ := List.head?_eq_some_iff.1 (Text.head?_trimWhile kept more)
  have visible : first.char ≠ '\n' := by
    intro newline
    rw [Cell.isBlank, newline] at kept
    cases kept
  refine ⟨first, rest, trimmed, ?_, first, rfl, kept, rfl, ?_⟩
  · rw [← trimmed, Text.trimWhile_cons kept]
    exact Text.dropEndWhile_isPrefix _
  · exact charAt?_of_mem (within.subset List.mem_cons_self) visible

theorem before_stopOf {c : Cell} (mem : c ∈ text)
    (within : List.Sublist (text ++ ending.toList) (Cell.ofChars .start source)) :
    c.pos.Before (stopOf source ending) := by
  cases ending with
  | none => exact ofChars_before (within.subset (List.mem_append_left _ mem))
  | some stop =>
    have pairs := (ofChars_pairwise .start source).sublist within
    exact (List.pairwise_append.1 pairs).2.2 c mem stop (List.mem_singleton_self stop)

theorem valueCells_infix_after {first colon : Cell} {rest after : List Cell}
    (dropped : (first :: rest).dropWhile (·.char != ':') = colon :: after) :
    valueCells (first :: rest) <:+: after := by
  rw [valueCells, dropped]
  exact Text.trimWhile_isInfix _

theorem isChain_valueCells {first : Cell} {rest : List Cell} (chain : text.IsChain Follows)
    (whole : first :: rest <+: text) : (valueCells (first :: rest)).IsChain Follows := by
  have inside : valueCells (first :: rest) <:+: text :=
    (Text.trimWhile_isInfix _).trans ((List.drop_suffix 1 _).isInfix.trans
      ((List.dropWhile_suffix _).isInfix.trans whole.isInfix))
  obtain ⟨front, back, split⟩ := inside
  rw [← split] at chain
  exact chain.left_of_append.right_of_append

theorem declaration_placed {first : Cell} {rest : List Cell}
    (within : (Item.statement text ending).In (Cell.ofChars .start source))
    (whole : first :: rest <+: text) (starts : StartsAt source text first.pos)
    (assigns : ∃ c ∈ first :: rest, c.char = ':') :
    Placed source (.statement text ending) (.declaration (declarationOf first rest)) := by
  obtain ⟨before, colon, after, split, char, -, dropped, found⟩ := exists_split_colon assigns
  refine ⟨starts, colon, whole.find?_eq_some found, ?_⟩
  have fromColon : colon :: after <:+ first :: rest := ⟨before, split.symm⟩
  have cells : List.Sublist (colon :: valueCells (first :: rest)) text :=
    ((valueCells_infix_after dropped).sublist.cons_cons colon).trans
      (fromColon.sublist.trans whole.sublist)
  have chain := isChain_valueCells within.1 whole
  have inside : List.Sublist (colon :: valueCells (first :: rest)) (Cell.ofChars .start source) :=
    cells.trans ((List.sublist_append_left _ _).trans within.2)
  -- The colon and the cells of the value come in this order in the source, so their places increase.
  have increase := (ofChars_pairwise .start source).sublist inside
  rw [List.pairwise_cons] at increase
  constructor
  case colon_char =>
    rw [← char]
    exact charAt?_of_mem (inside.subset List.mem_cons_self) (by simp [char])
  case char =>
    intro i c at' plain
    obtain ⟨k, cell, there, rfl, -, pos⟩ := exists_cell_of_charAt chain at' plain
    rw [pos]
    exact charAt?_of_mem (inside.subset (.tail _ (List.mem_of_getElem? there))) plain
  case after_colon =>
    intro i c at' plain
    obtain ⟨k, cell, there, -, -, pos⟩ := exists_cell_of_charAt chain at' plain
    rw [pos]
    exact increase.1 cell (List.mem_of_getElem? there)
  case before_stop =>
    intro i c at' plain
    obtain ⟨k, cell, there, -, -, pos⟩ := exists_cell_of_charAt chain at' plain
    rw [pos]
    exact before_stopOf (cells.subset (.tail _ (List.mem_of_getElem? there))) within.2
  case increasing => exact declarationOf_increasing chain increase.2
  case empty =>
    intro empty plain
    exact valueStart_of_nil dropped (valueCells_eq_nil empty plain)

theorem exists_colon_of_colonFollows {cells : List Cell} (h : colonFollows cells = true) :
    ∃ c ∈ cells, c.char = ':' := by
  obtain ⟨c, more, dropped, colon⟩ := head?_eq_of_startsWith h
  refine ⟨c, (List.dropWhile_suffix Cell.isBlank).subset ?_, colon⟩
  rw [dropped]
  exact List.mem_cons_self

theorem exists_colon_of_isVariableText {rest : List Cell} (h : isVariableText rest = true) :
    ∃ c ∈ rest, c.char = ':' := by
  unfold isVariableText at h
  split at h
  · split at h
    · cases h
    next c after dropped =>
      obtain ⟨d, mem, colon⟩ := exists_colon_of_colonFollows h
      refine ⟨d, (List.dropWhile_suffix (·.char != '}')).subset ?_, colon⟩
      rw [dropped]
      exact .tail _ ((List.dropWhile_suffix isVariableCell).subset mem)
  · obtain ⟨d, mem, colon⟩ := exists_colon_of_colonFollows (Bool.and_eq_true_iff.1 h).2
    exact ⟨d, (List.dropWhile_suffix isVariableCell).subset mem, colon⟩

theorem nodeOf_placed {flavor : Flavor} (begun : Begun text)
    (within : (Item.statement text ending).In (Cell.ofChars .start source))
    (known : IsStatement flavor text) :
    ∃ n, nodeOf flavor (Text.trimWhile Cell.isBlank text) = .ok (some n) ∧
      Placed source (.statement text ending) n := by
  obtain ⟨made, node⟩ := (nodeOf_ok_iff begun).2 known
  obtain ⟨first, rest, trimmed, whole, starts⟩ :=
    startsAt_of_begun begun ((List.sublist_append_left _ _).trans within.2)
  rw [trimmed] at node ⊢
  rw [nodeOf] at node ⊢
  split_ifs at node ⊢ with at' variable' colon mixin
  · refine ⟨_, rfl, declaration_placed within whole starts ?_⟩
    obtain ⟨c, mem, char⟩ := exists_colon_of_isVariableText (Bool.and_eq_true_iff.1 variable').2
    exact ⟨c, .tail _ mem, char⟩
  · exact ⟨_, rfl, starts⟩
  · exact ⟨_, rfl, declaration_placed within whole starts (by simpa using colon)⟩
  · exact ⟨_, rfl, starts⟩

theorem comment_placed {slash : Cell} {inline : Bool}
    (within : (Item.comment slash inline).In (Cell.ofChars .start source)) :
    charAt? source slash.pos = some '/' ∧
      charAt? source ⟨slash.pos.line, slash.pos.column + 1⟩ = some (if inline then '/' else '*') := by
  obtain ⟨before, second, after, split, char, char'⟩ := within
  have chain := ofChars_chain .start source
  rw [split, List.isChain_append, List.isChain_cons_cons] at chain
  have next : second.pos = ⟨slash.pos.line, slash.pos.column + 1⟩ := by
    rw [chain.2.1.1, char]
    rfl
  have visible : second.char ≠ '\n' := by
    rw [char']
    split <;> decide
  have slash_mem : slash ∈ Cell.ofChars .start source := by simp [split]
  have second_mem : second ∈ Cell.ofChars .start source := by simp [split]
  rw [← next, charAt?_of_mem slash_mem (by simp [char]), charAt?_of_mem second_mem visible, char,
    char']
  exact ⟨rfl, rfl⟩

theorem begins_placed {flavor : Flavor} {i : Item} {p : Piece} (reads : i.Reads p)
    (within : i.In (Cell.ofChars .start source))
    (known : ∀ text ending, .statement text ending = i → IsStatement flavor text) :
    List.Forall₂ (Placed source) ([i].filter (!·.isClosing)) (p.begins flavor) := by
  cases i with
  | comment slash inline =>
    obtain ⟨c, rfl, start, kind⟩ := reads.eq_comment
    obtain ⟨slash', second⟩ := comment_placed within
    refine .cons ⟨start, kind, ?_, ?_⟩ .nil
    · rw [start]
      exact slash'
    · rw [start]
      exact second
  | statement text ending =>
    obtain ⟨begun, rfl⟩ := reads.eq_statement
    obtain ⟨n, node, placed⟩ := nodeOf_placed begun within (known text ending rfl)
    simp only [Piece.begins, node]
    exact .cons placed .nil
  | opening text brace =>
    obtain ⟨begun, rfl⟩ := reads.eq_opening
    obtain ⟨char, within⟩ := within
    have brace_mem : brace ∈ Cell.ofChars .start source := within.subset (by simp)
    refine .cons ⟨rfl, ?_, ?_⟩ .nil
    · rw [charAt?_of_mem brace_mem (by simp [char]), char]
    · rcases begun with rfl | begun
      · rfl
      · obtain ⟨first, rest, trimmed, whole, starts⟩ :=
          startsAt_of_begun begun ((List.sublist_append_left _ _).trans within)
        rw [if_neg (Begun.ne_nil begun), trimmed]
        exact starts
  | closing brace =>
    rw [reads.eq_closing]
    exact .nil

theorem forall₂_begins {flavor : Flavor} {R : Item → Node → Prop} {is : List Item} {ps : List Piece}
    (reads : List.Forall₂ Item.Reads is ps)
    (one : ∀ i ∈ is, ∀ p, i.Reads p →
      List.Forall₂ R ([i].filter (!·.isClosing)) (p.begins flavor)) :
    List.Forall₂ R (is.filter (!·.isClosing)) (ps.flatMap (Piece.begins flavor)) := by
  induction reads with
  | nil => exact .nil
  | @cons i p is ps read _ ih =>
    rw [← List.singleton_append, List.filter_append, List.flatMap_cons]
    apply List.rel_append
    · exact one i List.mem_cons_self p read
    · exact ih fun j mem => one j (.tail _ mem)

theorem begins_all_placed {flavor : Flavor} {is : List Item} {ps : List Piece}
    (reads : List.Forall₂ Item.Reads is ps) (within : ∀ i ∈ is, i.In (Cell.ofChars .start source))
    (known : ∀ text ending, .statement text ending ∈ is → IsStatement flavor text) :
    List.Forall₂ (Placed source) (is.filter (!·.isClosing)) (ps.flatMap (Piece.begins flavor)) := by
  apply forall₂_begins reads
  intro i mem p read
  apply begins_placed read (within i mem)
  rintro text ending rfl
  exact known text ending mem

end Items

/-- Every node of a parsed sheet stands where its item of the flat scan does, and the places that are
computed for the characters of a value are where they stand. -/
theorem parse_placed {d : Dialect} {flavor : Flavor} (h : d.flavor? = some flavor) {text : String}
    {sheet : Sheet} (parsed : d.parse text = .ok sheet) :
    ∃ is, Scan.items flavor (Text.dropByteOrderMark text.toList) = some is ∧
      List.Forall₂ (Placed (Text.dropByteOrderMark text.toList)) (is.filter (!·.isClosing))
        sheet.walk := by
  have scanned := scan_eq_pieces (ordinary_of_flavor? h)
    (Cell.ofChars .start (Text.dropByteOrderMark text.toList))
  simp only [Dialect.parse, h, parse] at parsed
  obtain ⟨ps, read, walk⟩ := walk_parseWithin parsed
  obtain ⟨ps', read', completes⟩ := (parseWithin_ok_iff text.toList).1 ⟨sheet, parsed⟩
  cases read.symm.trans read'
  simp only [read] at scanned
  obtain ⟨is, found, reads⟩ := scanned
  refine ⟨is, found, ?_⟩
  have within := scan_in (ofChars_chain _ _) (holds_start [] _) found
  have placed := begins_all_placed reads within ((completes_iff reads _).1 completes).2
  rw [← walk, List.forall₂_map_right_iff] at placed
  simpa only [placed_bare] using placed

theorem parse_placed_over_comment :
    Dialect.scss.flavor? = some .scss ∧
    Dialect.scss.parse "b: c//d\ne" = .ok ⟨[.declaration ⟨"b", "c\ne", false, ⟨1, 1⟩, ⟨1, 4⟩⟩]⟩ ∧
    ∃ is, Scan.items .scss "b: c//d\ne".toList = some is ∧ List.Forall₂ (Placed "b: c//d\ne".toList)
      (is.filter (!·.isClosing)) [.declaration ⟨"b", "c\ne", false, ⟨1, 1⟩, ⟨1, 4⟩⟩] := by
  have read : readStatement .scss 0 [] (Cell.ofChars .start "b: c//d\ne".toList) =
      .ok ([⟨'e', ⟨2, 1⟩⟩, ⟨'\n', ⟨1, 8⟩⟩, ⟨'c', ⟨1, 4⟩⟩, ⟨' ', ⟨1, 3⟩⟩, ⟨':', ⟨1, 2⟩⟩,
        ⟨'b', ⟨1, 1⟩⟩], []) := by
    simp [readStatement, Flavor.scss, startsWith, afterLine, Position.start, Position.after]
  have next : Piece.next .scss (Cell.ofChars .start "b: c//d\ne".toList) =
      ((readStatement .scss 0 [] (Cell.ofChars .start "b: c//d\ne".toList)).map fun r =>
        Piece.ofStatement r.1 r.2).map some := rfl
  rw [read] at next
  have ended : pieces .scss [] = .ok [] := pieces_of_none rfl
  have whole := pieces_of_some next
  rw [ended] at whole
  have parsed : Dialect.scss.parse "b: c//d\ne" =
      .ok ⟨[.declaration ⟨"b", "c\ne", false, ⟨1, 1⟩, ⟨1, 4⟩⟩]⟩ :=
    map_eq_ok_iff.2 ⟨_, (Outline.readAll_eq_ok_iff _ _ _).2 ⟨_, _, whole, rfl, rfl⟩, rfl⟩
  exact ⟨rfl, parsed, parse_placed rfl parsed⟩

end Brace

end SheetLint
