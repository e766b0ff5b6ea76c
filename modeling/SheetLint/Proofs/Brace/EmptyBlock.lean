import SheetLint.Proofs.Brace.Blame
import SheetLint.Proofs.Brace.Order

namespace SheetLint

/-! ## Empty blocks of a tree -/

namespace Rule

def emptyAt (opener : Position) : Finding :=
  ⟨opener, "Unexpected empty block"⟩

theorem emptyAt_injective : Function.Injective emptyAt :=
  fun _ _ same => (Finding.mk.inj same).1

end Rule

namespace Writer

inductive Mark where
  | leaf
  | opening (opener : Position)
  | closing

def marks : Writer Mark where
  leaf _ := [.leaf]
  opening _ _ opener := [.opening opener]
  closing := [.closing]

def emptied : List Mark → List Position
  | [] => []
  | .opening p :: .closing :: ms => p :: emptied ms
  | _ :: ms => emptied ms

theorem emptied_opening (p : Position) {ms : List Mark} (kept : ms.head? ≠ some .closing) :
    emptied (.opening p :: ms) = emptied ms := by
  cases ms with
  | nil => rfl
  | cons m ms =>
    cases m with
    | closing => exact absurd rfl kept
    | leaf | opening => rfl

theorem mem_emptied {p : Position} {ms : List Mark} :
    p ∈ emptied ms ↔ [.opening p, .closing] <:+: ms := by
  fun_induction emptied ms with
  | case1 => simp
  | case2 q ms ih =>
    have inside : [.opening p, .closing] <:+: Mark.closing :: ms ↔ [.opening p, .closing] <:+: ms := by
      simp [List.infix_cons_iff]
    rw [List.mem_cons, ih, List.infix_cons_iff, inside]
    simp
  | case3 m ms other ih =>
    have apart : ¬[.opening p, .closing] <+: m :: ms := by
      rintro ⟨more, eq⟩
      obtain ⟨rfl, rfl⟩ := List.cons.inj eq
      exact other p more rfl rfl
    rw [ih, List.infix_cons_iff, or_iff_right apart]

theorem head?_node (n : Node) (rest : List Mark) : (marks.node n ++ rest).head? ≠ some .closing := by
  cases n <;> exact nofun

mutual

theorem emptied_node (rest : List Mark) : ∀ n : Node,
    (emptied (marks.node n ++ rest)).map Rule.emptyAt =
      n.walk.filterMap Rule.emptyBlock? ++ (emptied rest).map Rule.emptyAt
  | .block prelude start opener [] => rfl
  | .block prelude start opener (n :: ns) => by
    have kept : (marks.all (n :: ns) ++ (marks.closing ++ rest)).head? ≠ some .closing := by
      rw [all, List.append_assoc]
      exact head?_node n _
    have within := emptied_all (marks.closing ++ rest) (n :: ns)
    rw [node, Node.walk, List.append_assoc, List.append_assoc]
    rw [← emptied_opening opener kept] at within
    exact within
  | .comment c | .declaration d | .statement prelude start => rfl

theorem emptied_all (rest : List Mark) : ∀ ns : List Node,
    (emptied (marks.all ns ++ rest)).map Rule.emptyAt =
      (Node.walkAll ns).filterMap Rule.emptyBlock? ++ (emptied rest).map Rule.emptyAt
  | [] => rfl
  | n :: ns => by
    rw [all, List.append_assoc, emptied_node _ n, emptied_all rest ns, Node.walkAll, List.filterMap_append,
      List.append_assoc]

end

end Writer

namespace Brace

open Scan

/-! ## Blocks of the scan -/

/-- Whether a block opens at a cell and closes at another one, with some items between the two. -/
structure Encloses (is : List Item) (opener : Cell) (inside : List Item) (closer : Cell) : Prop where
  split : ∃ before text after, is = before ++ .opening text opener :: (inside ++ .closing closer :: after)
  closings_le : ∀ passed, passed <+: inside → closings passed ≤ openings passed
  balanced : openings inside = closings inside

theorem Nested.exists_after {limit depth : Nat} {before after : List Item}
    (nested : Nested limit depth (before ++ after)) : ∃ depth', Nested limit depth' after := by
  induction before generalizing depth with
  | nil => exact ⟨depth, nested⟩
  | cons i before ih =>
    cases i with
    | comment | statement => exact ih nested
    | opening | closing => exact ih nested.2

theorem Nested.exists_closing {limit depth k : Nat} {is : List Item}
    (nested : Nested limit (depth + k + 1) is) : ∃ inside closer after,
      is = inside ++ .closing closer :: after ∧
      (∀ passed, passed <+: inside → closings passed ≤ openings passed + k) ∧
      openings inside + k = closings inside := by
  induction is generalizing k with
  | nil => cases nested
  | cons i is ih =>
    cases i with
    | comment slash inline =>
      obtain ⟨inside, closer, after, rfl, le, balanced⟩ := ih nested
      refine ⟨.comment slash inline :: inside, closer, after, rfl, ?_, balanced⟩
      exact forall_prefix_cons.2 ⟨Nat.zero_le _, le⟩
    | statement text ending =>
      obtain ⟨inside, closer, after, rfl, le, balanced⟩ := ih nested
      refine ⟨.statement text ending :: inside, closer, after, rfl, ?_, balanced⟩
      exact forall_prefix_cons.2 ⟨Nat.zero_le _, le⟩
    | opening text brace =>
      -- The block that opens here has to be closed as well.
      obtain ⟨inside, closer, after, rfl, le, balanced⟩ := ih (k := k + 1) nested.2
      have counts (js : List Item) : openings (.opening text brace :: js) + k = openings js + (k + 1) := by
        simp [openings, Nat.add_right_comm _ 1, Nat.add_assoc]
      refine ⟨.opening text brace :: inside, closer, after, rfl, ?_, (counts inside).trans balanced⟩
      refine forall_prefix_cons.2 ⟨Nat.zero_le _, ?_⟩
      intro passed ahead
      rw [counts]
      exact le passed ahead
    | closing brace =>
      cases k with
      | zero =>
        refine ⟨[], brace, is, rfl, ?_, rfl⟩
        intro passed ahead
        rw [List.prefix_nil.1 ahead]
        exact Nat.le_refl _
      | succ k =>
        obtain ⟨inside, closer, after, rfl, le, balanced⟩ := ih nested.2
        have counts (js : List Item) : closings (.closing brace :: js) = closings js + 1 := by
          simp [closings]
        refine ⟨.closing brace :: inside, closer, after, rfl, ?_, ?_⟩
        · refine forall_prefix_cons.2 ⟨Nat.zero_le _, ?_⟩
          intro passed ahead
          rw [counts]
          exact Nat.succ_le_succ (le passed ahead)
        · rw [counts]
          exact congrArg (· + 1) balanced

theorem exists_encloses {limit depth : Nat} {is : List Item} (nested : Nested limit depth is)
    {text : List Cell} {opener : Cell} (mem : .opening text opener ∈ is) :
    ∃ inside closer, Encloses is opener inside closer := by
  obtain ⟨before, rest, rfl⟩ := List.append_of_mem mem
  obtain ⟨depth', room, nested⟩ := nested.exists_after
  obtain ⟨inside, closer, after, rfl, le, balanced⟩ := Nested.exists_closing (k := 0) nested
  exact ⟨inside, closer, ⟨before, text, after, rfl⟩, le, balanced⟩

/-! ## What a writer leaves of the scan -/

def Scan.Item.mark : Item → Writer.Mark
  | .comment _ _ => .leaf
  | .statement _ _ => .leaf
  | .opening _ brace => .opening brace.pos
  | .closing _ => .closing

theorem write_marks {flavor : Flavor} {is : List Item} {ps : List Piece}
    (reads : List.Forall₂ Item.Reads is ps)
    (known : ∀ text ending, .statement text ending ∈ is → IsStatement flavor text) :
    ps.flatMap (Piece.write Writer.marks flavor) = is.map Item.mark := by
  induction reads with
  | nil => rfl
  | @cons i p is ps read _ ih =>
    rw [List.flatMap_cons, ih fun text ending mem => known text ending (.tail _ mem), List.map_cons]
    cases i with
    | comment slash inline =>
      obtain ⟨c, rfl, -⟩ := read.eq_comment
      rfl
    | statement text ending =>
      obtain ⟨begun, rfl⟩ := read.eq_statement
      obtain ⟨n, node⟩ := exists_nodeOf begun (known text ending List.mem_cons_self)
      rw [Piece.write, node]
      rfl
    | opening text brace =>
      rw [read.eq_opening.2]
      rfl
    | closing brace =>
      rw [read.eq_closing]
      rfl

/-! ## The text of a block -/

def Hollow (content : List Cell) : Prop :=
  ∀ c ∈ content, c.isBlank = true ∨ c.char = ';'

theorem hollow_iff {content : List Cell} : Hollow content ↔ ∀ c ∈ content, Piece.isGap c = true := by
  simp [Hollow, Piece.isGap]

def Scan.Item.brace? : Item → Option Cell
  | .opening _ brace => some brace
  | .closing brace => some brace
  | _ => none

section Scanned

variable {flavor : Flavor} {s t : State} {b c : Cell} {i : Item} {cells : List Cell}

theorem brace_of_ended {ending : Option Cell} (mem : i ∈ s.ended ending) : i.brace? = none := by
  unfold State.ended at mem
  split at mem
  · cases mem
  · cases List.mem_singleton.1 mem
    rfl

theorem brace_of_commented {inline : Bool} (mem : i ∈ s.commented c inline) : i.brace? = none := by
  unfold State.commented at mem
  split at mem
  · cases List.mem_singleton.1 mem
    rfl
  · cases mem

theorem Scan.Moves.of_brace {next : Option Char} {p before after : List Item} (moves : Moves s c next p t)
    (eq : p = before ++ i :: after) (brace : i.brace? = some b) : b = c ∧ t = .start ∧ after = [] := by
  have mem : i ∈ p := by simp [eq]
  cases moves with
  | collect | pass => cases mem
  | comment | line => cases (brace_of_commented mem).symm.trans brace
  | semicolon => cases (brace_of_ended mem).symm.trans brace
  | opening =>
    obtain ⟨rfl, same⟩ | ⟨rfl, same⟩ := List.singleton_eq_append_iff.1 eq
    · cases same
      cases brace
      exact ⟨rfl, rfl, rfl⟩
    · cases same
  | closing =>
    rcases List.eq_nil_or_concat after with rfl | ⟨more, last, rfl⟩
    · obtain ⟨-, rfl⟩ := List.append_singleton_inj.1 eq
      cases brace
      exact ⟨rfl, rfl, rfl⟩
    · rw [List.concat_eq_append, ← List.cons_append, ← List.append_assoc] at eq
      have early : i ∈ s.ended (some c) := by simp [(List.append_singleton_inj.1 eq).1]
      cases (brace_of_ended early).symm.trans brace

theorem scan_behind_brace {before after : List Item} (brace : i.brace? = some b)
    (h : scan flavor s cells = some (before ++ i :: after)) :
    ∃ passed rest, cells = passed ++ b :: rest ∧ scan flavor .start rest = some after := by
  induction cells generalizing s before with
  | nil =>
    have passed : s.ended none = before ++ i :: after := by
      rw [scan, State.finish] at h
      split at h
      · exact Option.some.inj h
      · exact Option.some.inj h
      · cases h
    have mem : i ∈ s.ended none := by simp [passed]
    cases (brace_of_ended mem).symm.trans brace
  | cons c cells ih =>
    rw [scan] at h
    split at h
    next => cases h
    next p t stepped =>
      obtain ⟨more, scanned, eq⟩ := Option.map_eq_some_iff.1 h
      have onward {early : List Item} (later : more = early ++ i :: after) :
          ∃ passed rest, c :: cells = passed ++ b :: rest ∧ scan flavor .start rest = some after := by
        obtain ⟨passed, left, rfl, behind⟩ := ih (later ▸ scanned)
        exact ⟨c :: passed, left, rfl, behind⟩
      rcases List.append_eq_append_iff.1 eq with ⟨early, rfl, rest⟩ | ⟨late, passed, rest⟩
      · exact onward rest
      · cases late with
        | nil =>
          have now : more = [] ++ i :: after := rest.symm
          exact onward now
        | cons j late =>
          obtain ⟨rfl, rfl⟩ := List.cons.inj rest
          obtain ⟨rfl, rfl, rfl⟩ := (moves_of_step stepped).of_brace passed brace
          exact ⟨[], cells, rfl, scanned⟩

theorem scan_gaps (ordinary : Ordinary flavor) {content : List Cell} (hollow : Hollow content)
    (closes : c.char = '}') :
    scan flavor .start (content ++ c :: cells) = (scan flavor .start cells).map (.closing c :: ·) := by
  have visible : ¬Piece.isGap c = true := by
    simp [Piece.isGap, Cell.isBlank, closes]
    rfl
  rw [scan_gap ordinary, List.dropWhile_append_of_pos (hollow_iff.1 hollow),
    List.dropWhile_cons_of_neg visible, State.start, scan_plain (stepPlain_closing ordinary [] closes)]
  rfl

theorem exists_next (ordinary : Ordinary flavor) {after : List Item}
    (h : scan flavor .start cells = some (i :: after)) :
    ∃ piece left, Piece.next flavor cells = .ok (some (piece, left)) ∧ i.Reads piece := by
  have next := scan_next ordinary cells
  rw [h] at next
  cases read : Piece.next flavor cells with
  | error e =>
    rw [read] at next
    cases next
  | ok found =>
    cases found with
    | none =>
      rw [read] at next
      cases next
    | some found =>
      rw [read] at next
      obtain ⟨item, reads, eq⟩ := next
      obtain ⟨more, -, same⟩ := Option.map_eq_some_iff.1 eq.symm
      obtain ⟨rfl, rfl⟩ := List.cons.inj same
      exact ⟨found.1, found.2, rfl, reads⟩

theorem ne_closing_ofStatement (buffer rest : List Cell) (pos : Position) :
    (Piece.ofStatement buffer rest).1 ≠ .closing pos := by
  unfold Piece.ofStatement
  intro same
  repeat' split at same
  all_goals cases same

theorem closing_of_next {pos : Position} {left : List Cell}
    (read : Piece.next flavor cells = .ok (some (.closing pos, left))) :
    ∃ content, Hollow content ∧ cells = content ++ ⟨'}', pos⟩ :: left := by
  refine ⟨cells.takeWhile Piece.isGap, hollow_iff.2 fun c => List.mem_takeWhile_imp, ?_⟩
  obtain ⟨c, rest, cut, made⟩ := Piece.next_eq_some_iff.1 read
  have all : cells = cells.takeWhile Piece.isGap ++ c :: rest := by
    rw [← cut, List.takeWhile_append_dropWhile]
  unfold Piece.ofCell at made
  split_ifs at made with closes opens
  · cases made
    rwa [← closes]
  · cases made
  · split at made <;> cases made
  · cases made
  · obtain ⟨r, -, same⟩ := map_eq_ok_iff.1 made
    cases ne_closing_ofStatement _ _ _ (congrArg Prod.fst same)

theorem exists_content (ordinary : Ordinary flavor) {inside after : List Item} (closes : b.char = '}')
    (h : scan flavor .start cells = some (inside ++ .closing b :: after)) :
    ∃ content left, cells = content ++ b :: left ∧ (Hollow content ↔ inside = []) := by
  by_cases empty : inside = []
  · subst empty
    obtain ⟨piece, left, read, reads⟩ := exists_next ordinary h
    rw [reads.eq_closing] at read
    obtain ⟨content, hollow, split⟩ := closing_of_next read
    refine ⟨content, left, ?_, iff_of_true hollow rfl⟩
    rw [split, ← closes]
  · obtain ⟨content, left, rfl, behind⟩ := scan_behind_brace rfl h
    refine ⟨content, left, rfl, fun hollow => ?_, fun nothing => absurd nothing empty⟩
    rw [scan_gaps ordinary hollow closes, behind] at h
    exact List.self_eq_append_left.1 (Option.some.inj h)

end Scanned

/-! ## The openers of empty blocks -/

section Items

variable {flavor : Flavor} {source : List Char} {is : List Item}

theorem Scan.Item.eq_opening_of_mark {i : Item} {p : Position} (h : i.mark = .opening p) :
    ∃ text brace, i = .opening text brace ∧ brace.pos = p := by
  cases i with
  | opening text brace => exact ⟨text, brace, rfl, Writer.Mark.opening.inj h⟩
  | comment | statement | closing => cases h

theorem mark_not_mem {before after : List Item} {text : List Cell} {opener : Cell}
    (found : Scan.items flavor source = some (before ++ .opening text opener :: after)) :
    .opening opener.pos ∉ before.map Item.mark ∧ .opening opener.pos ∉ after.map Item.mark := by
  obtain ⟨-, apart⟩ := items_pairwise found
  rw [List.pairwise_append, List.pairwise_cons] at apart
  obtain ⟨-, ⟨later, -⟩, earlier⟩ := apart
  have here {text : List Cell} {brace : Cell} : brace ∈ (Item.opening text brace).cells := by
    simp [Item.cells]
  constructor
  · intro mem
    obtain ⟨i, among, same⟩ := List.mem_map.1 mem
    obtain ⟨text', brace, rfl, pos⟩ := Item.eq_opening_of_mark same
    exact (earlier _ among _ List.mem_cons_self brace here opener here).ne pos
  · intro mem
    obtain ⟨i, among, same⟩ := List.mem_map.1 mem
    obtain ⟨text', brace, rfl, pos⟩ := Item.eq_opening_of_mark same
    exact (later _ among opener here brace here).ne pos.symm

theorem exists_opening_of_mem_emptied {p : Position} (mem : p ∈ Writer.emptied (is.map Item.mark)) :
    ∃ text opener, .opening text opener ∈ is ∧ opener.pos = p := by
  have within : .opening p ∈ is.map Item.mark := (Writer.mem_emptied.1 mem).subset List.mem_cons_self
  obtain ⟨i, among, same⟩ := List.mem_map.1 within
  obtain ⟨text, opener, rfl, pos⟩ := Item.eq_opening_of_mark same
  exact ⟨text, opener, among, pos⟩

theorem mem_emptied_iff (found : Scan.items flavor source = some is) {opener closer : Cell}
    {inside : List Item} (encloses : Encloses is opener inside closer) :
    opener.pos ∈ Writer.emptied (is.map Item.mark) ↔ inside = [] := by
  obtain ⟨⟨before, text, after, rfl⟩, le, -⟩ := encloses
  obtain ⟨earlier, later⟩ := mark_not_mem found
  rw [Writer.mem_emptied]
  constructor
  · rintro ⟨xs, ys, split⟩
    rw [List.map_append, List.map_cons, List.append_assoc] at split
    obtain ⟨-, -, rest⟩ := (List.append_cons_inj_of_notMem earlier later).1 split.symm
    cases inside with
    | nil => rfl
    | cons i inside =>
      cases i with
      | closing brace =>
        have balance := le [.closing brace] (List.prefix_append [_] inside)
        cases balance
      | comment | statement | opening => cases rest
  · rintro rfl
    refine ⟨before.map Item.mark, after.map Item.mark, ?_⟩
    simp [Item.mark]

end Items

theorem emptyBlocks_eq {is : List Item} {ps : List Piece} {flavor : Flavor} {sheet : Sheet}
    (reads : List.Forall₂ Item.Reads is ps)
    (known : ∀ text ending, .statement text ending ∈ is → IsStatement flavor text)
    (written : Writer.marks.all sheet.nodes = ps.flatMap (Piece.write Writer.marks flavor)) :
    sheet.walk.filterMap Rule.emptyBlock? =
      (Writer.emptied (is.map Item.mark)).map Rule.emptyAt := by
  have emptied := Writer.emptied_all [] sheet.nodes
  rw [List.append_nil, written, write_marks reads known] at emptied
  rw [emptied]
  exact (List.append_nil _).symm

/-- Every block of an accepted text has a brace that closes it, and is reported once if between its braces
there is nothing but blanks and semicolons, which is so exactly if the scan passes nothing there; nothing
else is reported. -/
theorem blockNoEmpty_check {d : Dialect} {flavor : Flavor} (h : d.flavor? = some flavor) {text : String}
    {sheet : Sheet} (parsed : d.parse text = .ok sheet) (context : Rule.Context) :
    ∃ is findings, Scan.items flavor (Text.dropByteOrderMark text.toList) = some is ∧
      Rule.blockNoEmpty.check context sheet = ⟨findings, .finished⟩ ∧
      findings.Pairwise Finding.Before ∧
      (∀ f ∈ findings, ∃ opener inside closer, Encloses is opener inside closer ∧
        f = Rule.emptyAt opener.pos) ∧
      (∀ before opener, .opening before opener ∈ is →
        ∃ inside closer, Encloses is opener inside closer) ∧
      ∀ opener inside closer, Encloses is opener inside closer →
        opener.char = '{' ∧ closer.char = '}' ∧
        ∃ content, opener :: (content ++ [closer]) <:+:
            Cell.ofChars .start (Text.dropByteOrderMark text.toList) ∧
          (Hollow content ↔ inside = []) ∧
          (Rule.emptyAt opener.pos ∈ findings ↔ Hollow content) := by
  have ordinary := ordinary_of_flavor? h
  obtain ⟨is, ps, found, reads, accepted, written⟩ := written_of_parse h parsed
  have empties := emptyBlocks_eq reads accepted.statements (written Writer.marks)
  obtain ⟨precedes, -⟩ := walk_precedes h parsed
  have closed {before : List Cell} {opener : Cell} (mem : .opening before opener ∈ is) :
      ∃ inside closer, Encloses is opener inside closer :=
    exists_encloses ((accepted_iff is).1 accepted).1 mem
  refine ⟨is, sheet.walk.filterMap Rule.emptyBlock?, found, rfl, ?_, ?_, fun _ _ => closed, ?_⟩
  · exact Rule.pairwise_filterMap precedes fun n f => Rule.at_of_emptyBlock?
  · intro f mem
    rw [empties] at mem
    obtain ⟨p, among, rfl⟩ := List.mem_map.1 mem
    obtain ⟨before, opener, opens, rfl⟩ := exists_opening_of_mem_emptied among
    obtain ⟨inside, closer, encloses⟩ := closed opens
    exact ⟨opener, inside, closer, encloses, rfl⟩
  · intro opener inside closer encloses
    -- Behind its opening brace the scan is outside of everything, so a block reads like a text of its own.
    obtain ⟨before, begun, after, split⟩ := encloses.split
    have opens : (Item.opening begun opener).From _ := from_scan found _ (by simp [split])
    have closes : (Item.closing closer).From _ := from_scan found _ (by simp [split])
    obtain ⟨taken, rest, source, behind⟩ := scan_behind_brace (i := .opening begun opener) rfl
      (split ▸ found)
    obtain ⟨content, left, rfl, hollow⟩ := exists_content ordinary closes.2 behind
    refine ⟨opens.2, closes.2, content, ⟨taken, left, ?_⟩, hollow, ?_⟩
    · simp [source]
    · rw [empties, List.mem_map_of_injective Rule.emptyAt_injective, mem_emptied_iff found encloses, hollow]

theorem blockNoEmpty_check_semicolon :
    Dialect.scss.flavor? = some .scss ∧
    Dialect.scss.parse "\x7b;\x7d" = .ok ⟨[.block (.selector "") ⟨1, 1⟩ ⟨1, 1⟩ []]⟩ ∧
    ∃ is findings, Scan.items .scss "\x7b;\x7d".toList = some is ∧
      Rule.blockNoEmpty.check ⟨.bool true, .scss⟩ ⟨[.block (.selector "") ⟨1, 1⟩ ⟨1, 1⟩ []]⟩ =
        ⟨findings, .finished⟩ ∧
      findings.Pairwise Finding.Before ∧
      ∀ f ∈ findings, ∃ opener inside closer, Encloses is opener inside closer ∧
        f = Rule.emptyAt opener.pos := by
  have opening : Piece.next .scss (Cell.ofChars .start "\x7b;\x7d".toList) =
      .ok (some (.opening [] ⟨1, 1⟩, Cell.ofChars ⟨1, 2⟩ ";\x7d".toList)) := rfl
  have closing : Piece.next .scss (Cell.ofChars ⟨1, 2⟩ ";\x7d".toList) =
      .ok (some (.closing ⟨1, 3⟩, [])) := rfl
  have ended : pieces .scss [] = .ok [] := pieces_of_none rfl
  have whole : pieces .scss (Cell.ofChars .start "\x7b;\x7d".toList) =
      .ok [.opening [] ⟨1, 1⟩, .closing ⟨1, 3⟩] := by
    rw [pieces_of_some opening, pieces_of_some closing, ended]
    rfl
  have parsed : Dialect.scss.parse "\x7b;\x7d" = .ok ⟨[.block (.selector "") ⟨1, 1⟩ ⟨1, 1⟩ []]⟩ :=
    map_eq_ok_iff.2 ⟨_, (Outline.readAll_eq_ok_iff _ _ _).2 ⟨_, _, whole, rfl, rfl⟩, rfl⟩
  obtain ⟨is, findings, found, checked, ordered, here, -⟩ :=
    blockNoEmpty_check rfl parsed ⟨.bool true, .scss⟩
  exact ⟨rfl, parsed, is, findings, found, checked, ordered, here⟩

end Brace

end SheetLint
