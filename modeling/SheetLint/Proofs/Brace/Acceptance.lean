import SheetLint.Parse
import SheetLint.Proofs.Brace.Reading
import SheetLint.Proofs.Text.Trim

namespace SheetLint.Brace

open Scan

variable {flavor : Flavor} {limit : Nat}

/-! ## Statements without a block -/

theorem exists_colon_trimWhile (text : List Cell) :
    (∃ c ∈ Text.trimWhile Cell.isBlank text, c.char = ':') ↔ ∃ c ∈ text, c.char = ':' := by
  apply exists_congr
  intro c
  apply and_congr_left
  intro colon
  exact Text.mem_trimWhile (by simp [Cell.isBlank, colon]; decide) text

theorem nodeOf_ok_iff {text : List Cell} (begun : Begun text) :
    (∃ n, nodeOf flavor (Text.trimWhile Cell.isBlank text) = .ok n) ↔ IsStatement flavor text := by
  obtain ⟨c, rest, rfl, blank⟩ := begun
  rw [IsStatement, ← exists_colon_trimWhile, List.head?_cons]
  obtain ⟨more, trimmed⟩ := List.head?_eq_some_iff.1 (Text.head?_trimWhile blank rest)
  rw [trimmed, nodeOf]
  by_cases at' : c.char = '@'
  · simp only [at', if_true, Option.map_some, true_or, iff_true]
    split <;> exact ⟨_, rfl⟩
  rw [if_neg at']
  by_cases colon : ∃ d ∈ c :: more, d.char = ':'
  · have any : (c :: more).any (·.char == ':') = true := by simpa using colon
    rw [if_pos any]
    exact iff_of_true ⟨_, rfl⟩ (.inr (.inl colon))
  · have any : ¬(c :: more).any (·.char == ':') = true := by simpa using colon
    rw [if_neg any]
    by_cases mixin : flavor.mixins = true ∧ (c.char = '.' ∨ c.char = '#')
    · simp [mixin]
    · simp [at', mixin]
      simpa using colon

/-! ## Nesting -/

def Nested (limit : Nat) : Nat → List Item → Prop
  | depth, [] => depth = 0
  | depth, .opening _ _ :: more => depth < limit ∧ Nested limit (depth + 1) more
  | depth, .closing _ :: more => 0 < depth ∧ Nested limit (depth - 1) more
  | depth, .comment _ _ :: more => Nested limit depth more
  | depth, .statement _ _ :: more => Nested limit depth more

theorem forall_prefix_cons {α : Type} {p : List α → Prop} {a : α} {as : List α} :
    (∀ passed, passed <+: a :: as → p passed) ↔
      p [] ∧ ∀ passed, passed <+: as → p (a :: passed) := by
  simp only [List.prefix_cons_iff]
  constructor
  · intro h
    exact ⟨h [] (.inl rfl), fun passed before => h _ (.inr ⟨passed, rfl, before⟩)⟩
  · rintro ⟨empty, more⟩ passed (rfl | ⟨rest, rfl, before⟩)
    · exact empty
    · exact more rest before

theorem nested_iff {depth : Nat} (within : depth ≤ limit) (is : List Item) :
    Nested limit depth is ↔
      (∀ passed, passed <+: is → closings passed ≤ depth + openings passed) ∧
      (∀ passed, passed <+: is → depth + openings passed ≤ closings passed + limit) ∧
      depth + openings is = closings is := by
  induction is generalizing depth with
  | nil => simp [Nested, openings, closings, within]
  | cons item is ih =>
    rw [forall_prefix_cons, forall_prefix_cons]
    cases item with
    | comment slash inline =>
      rw [Nested, ih within]
      simp [openings, closings, within]
    | statement text ending =>
      rw [Nested, ih within]
      simp [openings, closings, within]
    | opening text brace =>
      rw [Nested]
      by_cases room : depth < limit
      · rw [ih room]
        simp [openings, closings, room, within, Nat.add_assoc, Nat.add_comm 1]
      · simp only [room, false_and, false_iff, not_and]
        intro _ bounds
        have := bounds.2 [] List.nil_prefix
        simp [openings, closings] at this
        omega
    | closing brace =>
      rw [Nested]
      cases depth with
      | zero =>
        simp only [Nat.lt_irrefl, false_and, false_iff, not_and]
        intro bounds
        have := bounds.2 [] List.nil_prefix
        simp [openings, closings] at this
      | succ depth =>
        rw [Nat.add_sub_cancel, ih (Nat.le_of_succ_le within)]
        simp [openings, closings, within, Nat.add_right_comm _ 1]

/-! ## Building the outline -/

def Completes (flavor : Flavor) (limit : Nat) (o : Outline) (ps : List Piece) : Prop :=
  ∃ o' nodes, o.addAll flavor (some limit) ps = .ok o' ∧ o'.finish = .ok nodes

theorem completes_nil (o : Outline) : Completes flavor limit o [] ↔ o.blocks = [] := by
  cases h : o.blocks <;> simp [Completes, Outline.addAll, Outline.finish, h]

theorem completes_cons (o : Outline) (piece : Piece) (ps : List Piece) :
    Completes flavor limit o (piece :: ps) ↔
      ∃ mid, o.add flavor (some limit) piece = .ok mid ∧ Completes flavor limit mid ps := by
  simp only [Completes, Outline.addAll_cons_eq_ok_iff]
  constructor
  · rintro ⟨o', nodes, ⟨mid, added, built⟩, closed⟩
    exact ⟨mid, added, o', nodes, built, closed⟩
  · rintro ⟨mid, added, o', nodes, built, closed⟩
    exact ⟨o', nodes, ⟨mid, added, built⟩, closed⟩

theorem add_statement_ok_iff {text : List Cell} (begun : Begun text) (o : Outline) :
    (∃ mid, o.add flavor (some limit) (.statement (Text.trimWhile Cell.isBlank text)) = .ok mid) ↔
      IsStatement flavor text := by
  rw [← nodeOf_ok_iff begun, Outline.add]
  cases nodeOf flavor (Text.trimWhile Cell.isBlank text) with
  | error e => simp
  | ok n => cases n <;> simp

theorem blocks_add_statement {text : List Cell} {o mid : Outline}
    (added : o.add flavor (some limit) (.statement text) = .ok mid) : mid.blocks = o.blocks := by
  simp only [Outline.add] at added
  split at added <;> cases added <;> rfl

theorem completes_iff {is : List Item} {ps : List Piece} (reads : List.Forall₂ Item.Reads is ps)
    (o : Outline) :
    Completes flavor limit o ps ↔
      Nested limit o.blocks.length is ∧
        ∀ text ending, .statement text ending ∈ is → IsStatement flavor text := by
  -- The outline changes with every item, but of it only the number of open blocks matters.
  induction reads generalizing o with
  | nil => simp [completes_nil, Nested]
  | @cons item piece is ps read _ ih =>
    rw [completes_cons]
    cases item with
    | comment slash inline =>
      obtain ⟨c, rfl, -⟩ := read.eq_comment
      simp [Outline.add, Nested, ih]
    | statement text ending =>
      obtain ⟨begun, rfl⟩ := read.eq_statement
      rw [Nested]
      constructor
      · rintro ⟨mid, added, completes⟩
        rw [ih, blocks_add_statement added] at completes
        refine ⟨completes.1, ?_⟩
        intro text' ending' mem
        rcases List.mem_cons.1 mem with same | mem
        · cases same
          exact (add_statement_ok_iff begun o).1 ⟨mid, added⟩
        · exact completes.2 text' ending' mem
      · rintro ⟨nested, known⟩
        obtain ⟨mid, added⟩ :=
          (add_statement_ok_iff begun o).2 (known text ending List.mem_cons_self)
        refine ⟨mid, added, (ih mid).2 ⟨?_, ?_⟩⟩
        · rw [blocks_add_statement added]
          exact nested
        · intro text' ending' mem
          exact known text' ending' (.tail _ mem)
    | opening text brace =>
      obtain ⟨-, rfl⟩ := read.eq_opening
      by_cases room : o.blocks.length < limit
      · simp [Outline.add, Outline.isFull, Nested, ih, room, Nat.not_le.2 room]
      · simp [Outline.add, Outline.isFull, Nested, Nat.not_lt.1 room, room]
    | closing brace =>
      obtain rfl := read.eq_closing
      cases blocks : o.blocks with
      | nil => simp [Outline.add, Nested, blocks]
      | cons b more => simp [Outline.add, Nested, blocks, ih]

theorem accepted_iff (is : List Item) :
    Accepted flavor limit is ↔
      Nested limit 0 is ∧ ∀ text ending, .statement text ending ∈ is → IsStatement flavor text := by
  rw [nested_iff (Nat.zero_le limit)]
  simp only [Nat.zero_add]
  constructor
  · rintro ⟨closed, opened, balanced, statements⟩
    exact ⟨⟨closed, opened, balanced⟩, statements⟩
  · rintro ⟨⟨closed, opened, balanced⟩, statements⟩
    exact ⟨closed, opened, balanced, statements⟩

theorem ordinary_of_flavor? {d : Dialect} (h : d.flavor? = some flavor) : Ordinary flavor := by
  intro c interpolation
  cases d <;> cases h <;> cases interpolation
  · exact .inl rfl
  · exact .inr rfl

theorem parseWithin_ok_iff (text : List Char) :
    (∃ sheet, parseWithin flavor (some limit) text = .ok sheet) ↔
      ∃ ps, pieces flavor (Cell.ofChars .start (Text.dropByteOrderMark text)) = .ok ps ∧
        Completes flavor limit .empty ps := by
  simp only [parseWithin, map_eq_ok_iff, Outline.readAll_eq_ok_iff, Completes]
  constructor
  · rintro ⟨_, nodes, ⟨ps, o', read, built, closed⟩, rfl⟩
    exact ⟨ps, read, o', nodes, built, closed⟩
  · rintro ⟨ps, read, o', nodes, built, closed⟩
    exact ⟨⟨nodes⟩, nodes, ⟨ps, o', read, built, closed⟩, rfl⟩

/-- A text is accepted exactly if the flat scan finds a well-formed sheet in it. -/
theorem parse_ok_iff {d : Dialect} (h : d.flavor? = some flavor) (text : String) :
    (∃ sheet, d.parse text = .ok sheet) ↔
      ∃ is, Scan.items flavor (Text.dropByteOrderMark text.toList) = some is ∧
        Accepted flavor Sheet.maxNesting is := by
  have scanned := scan_eq_pieces (ordinary_of_flavor? h)
    (Cell.ofChars .start (Text.dropByteOrderMark text.toList))
  simp only [Dialect.parse, h, parse, parseWithin_ok_iff, Scan.items]
  cases read : pieces flavor (Cell.ofChars .start (Text.dropByteOrderMark text.toList)) with
  | error e =>
    simp only [read] at scanned
    simp [scanned]
  | ok ps =>
    simp only [read] at scanned
    obtain ⟨is, found, reads⟩ := scanned
    simp [found, completes_iff reads, accepted_iff, Outline.empty]

theorem parse_ok_brace_in_string :
    Dialect.scss.flavor? = some .scss ∧ ∃ sheet, Dialect.scss.parse "a\x7bb:'\x7d'\x7d" = .ok sheet := by
  refine ⟨rfl, (parse_ok_iff rfl _).2 ⟨[.opening [⟨'a', ⟨1, 1⟩⟩] ⟨'{', ⟨1, 2⟩⟩,
    .statement [⟨'b', ⟨1, 3⟩⟩, ⟨':', ⟨1, 4⟩⟩, ⟨'\'', ⟨1, 5⟩⟩, ⟨'}', ⟨1, 6⟩⟩, ⟨'\'', ⟨1, 7⟩⟩]
      (some ⟨'}', ⟨1, 8⟩⟩), .closing ⟨'}', ⟨1, 8⟩⟩], by decide, (accepted_iff _).2 ⟨?_, ?_⟩⟩⟩
  · simp [Nested, Sheet.maxNesting]
  · simp [IsStatement]

end SheetLint.Brace
