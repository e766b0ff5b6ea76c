import SheetLint.Proofs.Brace.Classification
import SheetLint.Proofs.Places

namespace SheetLint

namespace Brace

open Scan

def Scan.Item.cells : Item → List Cell
  | .comment slash _ => [slash]
  | .statement text _ => text
  | .opening text brace => text ++ [brace]
  | .closing brace => [brace]

/-! ## Items in order -/

section Items

variable {s t : State} {c : Cell}

theorem cells_ended (s : State) (ending : Option Cell) :
    (s.ended ending).flatMap Item.cells = s.text := by
  unfold State.ended
  split
  next empty => exact empty.symm
  next => exact List.flatMap_singleton ..

theorem cells_commented {inline : Bool} {text : List Cell} (empty : s.text = [] → text = [])
    (kept : List.Sublist text (s.text ++ [c])) :
    List.Sublist ((s.commented c inline).flatMap Item.cells ++ text) (s.text ++ [c]) := by
  unfold State.commented
  split
  next blank =>
    rw [empty blank, blank]
    exact List.Sublist.refl _
  next => exact kept

theorem keep_sublist (s : State) (c : Cell) (mode : Mode) :
    List.Sublist (s.keep c mode).text (s.text ++ [c]) := by
  rcases text_keep s c mode with text | ⟨-, text⟩
  · rw [text]
  · rw [text]
    exact List.nil_sublist _

theorem Scan.Moves.sublist {next : Option Char} {p : List Item} (moves : Moves s c next p t) :
    List.Sublist (p.flatMap Item.cells ++ t.text) (s.text ++ [c]) := by
  cases moves with
  | collect before now text =>
    rcases text with text | ⟨-, text⟩
    · rw [text]
      exact List.Sublist.refl _
    · rw [text]
      exact List.nil_sublist _
  | comment slash star before =>
    refine cells_commented ?_ (keep_sublist s c _)
    intro empty
    simp [State.keep, empty]
  | line slash again before => exact cells_commented id (List.sublist_append_left _ _)
  | pass inside => exact List.sublist_append_left _ _
  | semicolon before =>
    rw [cells_ended, List.append_nil]
    exact List.sublist_append_left _ _
  | opening brace before => simp [Item.cells]
  | closing before => simp [cells_ended, Item.cells]

theorem scan_sublist {flavor : Flavor} {rest : List Cell} {is : List Item}
    (h : scan flavor s rest = some is) : List.Sublist (is.flatMap Item.cells) (s.text ++ rest) := by
  induction rest generalizing s is with
  | nil =>
    rw [scan, State.finish] at h
    split at h <;> cases h
    all_goals rw [cells_ended, List.append_nil]
  | cons c rest ih =>
    rw [scan] at h
    split at h
    · cases h
    next p t step =>
      obtain ⟨more, scanned, rfl⟩ := Option.map_eq_some_iff.1 h
      calc (p ++ more).flatMap Item.cells
        _ = p.flatMap Item.cells ++ more.flatMap Item.cells := List.flatMap_append
        List.Sublist _ (p.flatMap Item.cells ++ (t.text ++ rest)) :=
          (List.Sublist.refl _).append (ih scanned)
        _ = (p.flatMap Item.cells ++ t.text) ++ rest := (List.append_assoc ..).symm
        List.Sublist _ ((s.text ++ [c]) ++ rest) :=
          (moves_of_step step).sublist.append (List.Sublist.refl rest)
        _ = s.text ++ c :: rest := (List.append_cons ..).symm

theorem items_pairwise {flavor : Flavor} {text : List Char} {is : List Item}
    (h : Scan.items flavor text = some is) :
    (∀ i ∈ is, i.cells.Pairwise fun a b => a.pos.Before b.pos) ∧
      is.Pairwise fun i j => ∀ a ∈ i.cells, ∀ b ∈ j.cells, a.pos.Before b.pos :=
  List.pairwise_flatMap.1 ((ofChars_pairwise .start text).sublist (scan_sublist h))

end Items

/-! ## Nodes and their items -/

structure Stands (i : Item) (n : Node) : Prop where
  first : i.cells.head?.map Cell.pos = some n.start
  at_cell : ∀ p, n.At p → ∃ c ∈ i.cells, c.pos = p
  value : ∀ d, n = .declaration d → d.start.Before d.valueStart ∧ d.Increasing

theorem stands_bare {i : Item} {n : Node} : Stands i n.bare ↔ Stands i n := by
  cases n with
  | block prelude start opener nodes =>
    have at_bare (p : Position) : (Node.block prelude start opener nodes).bare.At p ↔
        (Node.block prelude start opener nodes).At p := by
      constructor
      · rintro (_ | _)
        · exact .start _
        · exact .opener _ _ _ _
      · rintro (_ | _)
        · exact .start (.block prelude start opener [])
        · exact .opener _ _ _ _
    constructor
    · rintro ⟨first, at_cell, -⟩
      refine ⟨first, fun p at' => at_cell p ((at_bare p).2 at'), ?_⟩
      rintro d ⟨⟩
    · rintro ⟨first, at_cell, -⟩
      refine ⟨first, fun p at' => at_cell p ((at_bare p).1 at'), ?_⟩
      rintro d ⟨⟩
  | comment | declaration | statement => exact Iff.rfl

theorem nodeOf_cases {flavor : Flavor} {first : Cell} {rest : List Cell} {n : Node}
    (node : nodeOf flavor (first :: rest) = .ok (some n)) :
    (∃ prelude, n = .statement prelude first.pos) ∨
      n = .declaration (declarationOf first rest) ∧ ∃ c ∈ first :: rest, c.char = ':' := by
  rw [nodeOf] at node
  split_ifs at node with at' variable' colon mixin
  · cases node
    obtain ⟨c, mem, char⟩ := exists_colon_of_isVariableText (Bool.and_eq_true_iff.1 variable').2
    exact .inr ⟨rfl, c, .tail _ mem, char⟩
  · cases node
    exact .inl ⟨_, rfl⟩
  · cases node
    exact .inr ⟨rfl, by simpa using colon⟩
  · cases node
    exact .inl ⟨_, rfl⟩

theorem start_before_valueStart {first : Cell} {rest : List Cell}
    (pairs : (first :: rest).Pairwise fun a b => a.pos.Before b.pos)
    (assigns : ∃ c ∈ first :: rest, c.char = ':') :
    first.pos.Before (declarationOf first rest).valueStart := by
  obtain ⟨before, colon, after, split, -, -, dropped, -⟩ := exists_split_colon assigns
  have colon_before : colon.pos.Before (declarationOf first rest).valueStart := by
    cases value : valueCells (first :: rest) with
    | nil =>
      rw [valueStart_of_nil dropped value]
      exact .inr ⟨rfl, Nat.lt_succ_self _⟩
    | cons c cells =>
      have mem : c ∈ after := (valueCells_infix_after dropped).subset (by simp [value])
      rw [split, List.pairwise_append, List.pairwise_cons] at pairs
      rw [valueStart_eq value]
      exact pairs.2.1.1 c mem
  cases before with
  | nil =>
    cases split
    exact colon_before
  | cons b before =>
    obtain ⟨rfl, rfl⟩ := List.cons.inj split
    have later : first.pos.Before colon.pos := (List.pairwise_cons.1 pairs).1 colon (by simp)
    exact later.trans colon_before

section Nodes

variable {source text : List Cell}

theorem statement_stands {flavor : Flavor} {ending : Option Cell} {n : Node} (begun : Begun text)
    (chain : text.IsChain Follows) (pairs : text.Pairwise fun a b => a.pos.Before b.pos)
    (node : nodeOf flavor (Text.trimWhile Cell.isBlank text) = .ok (some n)) :
    Stands (.statement text ending) n := by
  obtain ⟨first, more, rfl, kept⟩ := begun
  obtain ⟨rest, trimmed⟩ := List.head?_eq_some_iff.1 (Text.head?_trimWhile kept more)
  have whole : first :: rest <+: first :: more := by
    rw [← trimmed, Text.trimWhile_cons kept]
    exact Text.dropEndWhile_isPrefix _
  rw [trimmed] at node
  rcases nodeOf_cases node with ⟨prelude, rfl⟩ | ⟨rfl, assigns⟩
  · refine ⟨rfl, ?_, ?_⟩
    · rintro p (_ | _)
      exact ⟨first, List.mem_cons_self, rfl⟩
    · rintro d ⟨⟩
  · have inside : List.Sublist (valueCells (first :: rest)) (first :: more) :=
      (Text.trimWhile_isInfix _).sublist.trans ((List.drop_sublist 1 _).trans
        ((List.dropWhile_sublist _).trans whole.sublist))
    have follows := isChain_valueCells chain whole
    refine ⟨rfl, ?_, ?_⟩
    · rintro p (_ | _ | ⟨char, visible⟩)
      · exact ⟨first, List.mem_cons_self, rfl⟩
      · obtain ⟨k, cell, there, -, -, pos⟩ := exists_cell_of_charAt follows char visible
        exact ⟨cell, inside.subset (List.mem_of_getElem? there), pos.symm⟩
    · rintro d same
      cases same
      exact ⟨start_before_valueStart (pairs.sublist whole.sublist) assigns,
        declarationOf_increasing follows (pairs.sublist inside)⟩

theorem begins_stand {flavor : Flavor} {i : Item} {p : Piece} (reads : i.Reads p)
    (within : i.In source) (pairs : i.cells.Pairwise fun a b => a.pos.Before b.pos)
    (known : ∀ text ending, .statement text ending = i → IsStatement flavor text) :
    List.Forall₂ Stands ([i].filter (!·.isClosing)) (p.begins flavor) := by
  cases i with
  | comment slash inline =>
    obtain ⟨c, rfl, start, -⟩ := reads.eq_comment
    refine .cons ⟨congrArg some start.symm, ?_, ?_⟩ .nil
    · rintro p (_ | _)
      exact ⟨slash, List.mem_cons_self, start.symm⟩
    · rintro d ⟨⟩
  | statement text ending =>
    obtain ⟨begun, rfl⟩ := reads.eq_statement
    obtain ⟨n, node⟩ := exists_nodeOf begun (known text ending rfl)
    simp only [Piece.begins, node]
    exact .cons (statement_stands begun within.1 pairs node) .nil
  | opening text brace =>
    obtain ⟨begun, rfl⟩ := reads.eq_opening
    have first : (text ++ [brace]).head?.map Cell.pos =
        some (((Text.trimWhile Cell.isBlank text).head?.map Cell.pos).getD brace.pos) := by
      rcases begun with rfl | ⟨first, more, rfl, kept⟩
      · rfl
      · rw [Text.head?_trimWhile kept more]
        rfl
    refine .cons ⟨first, ?_, ?_⟩ .nil
    · rintro p (_ | _)
      · obtain ⟨c, head, pos⟩ := Option.map_eq_some_iff.1 first
        exact ⟨c, List.mem_of_mem_head? head, pos⟩
      · exact ⟨brace, by simp [Item.cells], rfl⟩
    · rintro d ⟨⟩
  | closing brace =>
    rw [reads.eq_closing]
    exact .nil

end Nodes

theorem walk_precedes {d : Dialect} {flavor : Flavor} (h : d.flavor? = some flavor) {text : String}
    {sheet : Sheet} (parsed : d.parse text = .ok sheet) :
    sheet.walk.Pairwise Node.Precedes ∧
      (∀ prelude start opener nodes, Node.block prelude start opener nodes ∈ sheet.walk →
        start = opener ∨ start.Before opener) ∧
      ∀ d, .declaration d ∈ sheet.walk → d.start.Before d.valueStart ∧ d.Increasing := by
  obtain ⟨is, ps, found, reads, walk, known⟩ := reads_of_parse h parsed
  have within := scan_in (ofChars_chain _ _) (holds_start [] _) found
  obtain ⟨each, apart⟩ := items_pairwise found
  -- The scan tells the places in their order, and each node has its own stretch of the scan.
  have stand : List.Forall₂ Stands (is.filter (!·.isClosing)) (ps.flatMap (Piece.begins flavor)) := by
    apply forall₂_begins reads
    intro i mem p read
    apply begins_stand read (within i mem) (each i mem)
    rintro text ending rfl
    exact known text ending mem
  rw [← walk, List.forall₂_map_right_iff] at stand
  simp only [stands_bare] at stand
  refine ⟨?_, ?_, ?_⟩
  · apply pairwise_of_forall₂ stand (apart.filter _)
    intro i j m n before standsM standsN p q at' at''
    obtain ⟨a, mem, rfl⟩ := standsM.at_cell p at'
    obtain ⟨b, mem', rfl⟩ := standsN.at_cell q at''
    exact before a mem b mem'
  · intro prelude start opener nodes mem
    obtain ⟨i, among, stands⟩ := exists_of_forall₂ stand mem
    have pairs := each i (List.mem_filter.1 among).1
    obtain ⟨b, inside, rfl⟩ := stands.at_cell opener (.opener prelude start opener nodes)
    obtain ⟨a, head, pos⟩ := Option.map_eq_some_iff.1 stands.first
    obtain ⟨cells, all⟩ := List.head?_eq_some_iff.1 head
    have pos : a.pos = start := pos
    subst pos
    rw [all] at inside pairs
    rcases List.mem_cons.1 inside with rfl | inside
    · exact .inl rfl
    · exact .inr ((List.pairwise_cons.1 pairs).1 b inside)
  · intro d mem
    obtain ⟨i, -, stands⟩ := exists_of_forall₂ stand mem
    exact stands.value d rfl

end Brace

end SheetLint
