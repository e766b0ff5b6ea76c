import SheetLint.Brace.Outline
import SheetLint.Proofs.Brace.Returns

namespace SheetLint.Brace

open Scan

variable {flavor : Flavor}

section Pieces

variable {buffer other cells more : List Cell}

/-! ## Nodes -/

theorem withoutReturns_atRulePrelude (h : Returned cells more) :
    (atRulePrelude more).withoutReturns = (atRulePrelude cells).withoutReturns := by
  have name (q : Position) : isNameCell ⟨'\n', q⟩ = false ∧ isNameCell ⟨'\r', q⟩ = false :=
    ⟨rfl, rfl⟩
  simp only [atRulePrelude, Prelude.withoutReturns]
  rw [(h.takeWhile name).withoutReturns_text,
    ((h.dropWhile name).trimWhile Returned.blank).withoutReturns_text]

theorem withoutReturns_preludeOf (h : Returned cells more) :
    (preludeOf more).withoutReturns = (preludeOf cells).withoutReturns := by
  have selector := congrArg Prelude.selector h.withoutReturns_text
  cases h with
  | nil => rfl
  | keep c inline plain later =>
    rw [preludeOf, preludeOf]
    split
    · exact withoutReturns_atRulePrelude later
    · exact selector
  | newline => exact selector
  | pair => exact selector

theorem isVariableText_same (h : Returned cells more) :
    isVariableText more = isVariableText cells := by
  have name (q : Position) : isVariableCell ⟨'\n', q⟩ = false ∧ isVariableCell ⟨'\r', q⟩ = false :=
    ⟨rfl, rfl⟩
  have colon {cells more : List Cell} (h : Returned cells more) :
      colonFollows more = colonFollows cells :=
    startsWith_same (by decide) (by decide) (h.dropWhile Returned.blank)
  unfold isVariableText
  rw [startsWith_same (by decide) (by decide) h, colon (h.dropWhile name),
    (h.takeWhile name).isEmpty_eq]
  rcases h.dropWhile_ne (c := '}') (by decide) (by decide) with
    ⟨absent, absent'⟩ | ⟨d, rest, later, found, found', -, next⟩
  · simp only [absent, absent']
  · simp only [found, found', colon (next.dropWhile name)]

theorem inline_of_trimWhile {c : Cell} (mem : c ∈ (Text.trimWhile Cell.isBlank cells).head?) :
    c.char ≠ '\n' := by
  intro newline
  obtain ⟨rest, begun⟩ := List.head?_eq_some_iff.1 mem
  have visible := Text.not_of_trimWhile_eq_cons begun
  rw [Cell.isBlank, newline] at visible
  cases visible

theorem withoutReturns_declarationOf {first : Cell} (inline : first.char ≠ '\n')
    (plain : first.char ≠ '\r') (h : Returned cells more) :
    (declarationOf first more).withoutReturns = (declarationOf first cells).withoutReturns := by
  have whole : Returned (first :: cells) (first :: more) := .keep first inline plain h
  have before : Returned ((first :: cells).takeWhile (·.char != ':'))
      ((first :: more).takeWhile (·.char != ':')) := by
    apply whole.takeWhile (b := true)
    exact fun _ => ⟨rfl, rfl⟩
  have prop := (before.trimWhile Returned.blank).withoutReturns_text
  simp only [declarationOf, Declaration.withoutReturns, prop]
  rcases whole.dropWhile_ne (c := ':') (by decide) (by decide) with
    ⟨absent, absent'⟩ | ⟨colon, rest, later, found, found', -, next⟩
  · rw [absent, absent']
  · rw [found, found', List.drop_one, List.tail_cons, List.drop_one, List.tail_cons]
    have value := next.trimWhile Returned.blank
    obtain ⟨important, same⟩ := value.splitImportant
    rw [same, important]
    cases begun : Text.trimWhile Cell.isBlank rest with
    | nil =>
      rw [begun] at value
      rw [value.eq_nil_iff.1 rfl]
    | cons c cs =>
      have inline' : c.char ≠ '\n' := inline_of_trimWhile (by rw [begun]; rfl)
      rw [begun] at value
      obtain ⟨later', split, -⟩ := value.cons_of_ne inline'
      rw [split]

theorem nodeOf_same (h : Returned cells more) (begins : ∀ c ∈ cells.head?, c.char ≠ '\n') :
    (nodeOf flavor more).map (Option.map Node.withoutReturns) =
      (nodeOf flavor cells).map (Option.map Node.withoutReturns) := by
  have colon := h.any (p := (·.char == ':')) (b := false) fun _ => ⟨rfl, rfl⟩
  have text := h.withoutReturns_text
  cases h with
  | nil => rfl
  | keep c inline plain later =>
    have declaration := withoutReturns_declarationOf inline plain later
    rw [nodeOf, nodeOf, isVariableText_same later, colon]
    split_ifs
    · simp only [Except.map, Option.map_some, Node.withoutReturns, declaration]
    · simp only [Except.map, Option.map_some, Node.withoutReturns,
        withoutReturns_atRulePrelude later]
    · simp only [Except.map, Option.map_some, Node.withoutReturns, declaration]
    · simp only [Except.map, Option.map_some, Node.withoutReturns, Prelude.withoutReturns, text]
    · rfl
  | newline p => exact absurd rfl (begins ⟨'\n', p⟩ rfl)
  | pair p => exact absurd rfl (begins ⟨'\n', p⟩ rfl)

/-! ## Pieces -/

structure Alike (text text' : List Cell) : Prop where
  begins : ∀ c ∈ text.head?, c.char ≠ '\n'
  returned : Returned text text'

theorem Alike.head?_eq {text text' : List Cell} (h : Alike text text') :
    text'.head? = text.head? := by
  obtain ⟨begins, returned⟩ := h
  cases returned with
  | nil => rfl
  | keep => rfl
  | newline p => exact absurd rfl (begins ⟨'\n', p⟩ rfl)
  | pair p => exact absurd rfl (begins ⟨'\n', p⟩ rfl)

inductive Piece.Same : Piece → Piece → Prop
  | comment {c c' : Comment} (same : c'.withoutReturns = c.withoutReturns) :
    Same (.comment c) (.comment c')
  | statement {text text' : List Cell} (same : Alike text text') :
    Same (.statement text) (.statement text')
  | opening {text text' : List Cell} (same : Alike text text') (brace : Position) :
    Same (.opening text brace) (.opening text' brace)
  | closing (brace : Position) : Same (.closing brace) (.closing brace)

structure Piece.Begin (p q : Piece × List Cell) : Prop where
  piece : p.1.Same q.1
  rest : Returned p.2 q.2

theorem collected_same (buffers : Returned buffer.reverse other.reverse) :
    Alike (Piece.collected buffer) (Piece.collected other) :=
  ⟨fun _ => inline_of_trimWhile, buffers.trimWhile Returned.blank⟩

theorem ofStatement_same (buffers : Returned buffer.reverse other.reverse)
    (h : Returned cells more) :
    Piece.Begin (Piece.ofStatement buffer cells) (Piece.ofStatement other more) := by
  have text := collected_same buffers
  cases h with
  | nil => exact ⟨.statement text, .nil⟩
  | keep d inline plain later =>
    rw [Piece.ofStatement, Piece.ofStatement]
    split_ifs
    · exact ⟨.opening text d.pos, later⟩
    · exact ⟨.statement text, later⟩
    · exact ⟨.statement text, .keep d inline plain later⟩
  | newline p q later => exact ⟨.statement text, .newline p q later⟩
  | pair p q r later => exact ⟨.statement text, .pair p q r later⟩

theorem commentOf_same (c : Cell) (inline : Bool) (h : Returned cells more) :
    Piece.Same (Piece.commentOf c cells inline) (Piece.commentOf c more inline) := by
  have text := (h.trimWhile Returned.blank).withoutReturns_text
  simp only [Cell.text, Text.chars_trimWhile] at text
  apply Piece.Same.comment
  simp only [Comment.withoutReturns, text]

theorem body_same {r s : Reading} (same : r.Same s)
    (closed : ∃ star slash body, r.1 = slash :: star :: body ∧ star.char = '*' ∧ slash.char = '/') :
    Returned (r.1.drop 2).reverse (s.1.drop 2).reverse := by
  obtain ⟨star, slash, body, taken, char, char'⟩ := closed
  have whole : Returned (body.reverse ++ [star, slash]) s.1.reverse := by
    simpa [taken] using same.buffer
  obtain ⟨before, split, inside⟩ := whole.exists_of_append (by simp [char, char'])
  have taken' : s.1 = slash :: star :: before.reverse := by
    rw [← List.reverse_reverse s.1, split]
    simp
  simpa [taken, taken'] using inside

theorem lineComment_same (c : Cell) (h : Returned cells more) :
    Piece.Same (Piece.commentOf c (cells.takeWhile (·.char != '\n')) true)
      (Piece.commentOf c (more.takeWhile (·.char != '\n')) true) := by
  have ending : ∃ last, more.takeWhile (·.char != '\n') = cells.takeWhile (·.char != '\n') ++ last ∧
      (last = [] ∨ ∃ q, last = [⟨'\r', q⟩]) := by
    induction h with
    | nil => exact ⟨[], rfl, .inl rfl⟩
    | keep d inline plain later ih =>
      obtain ⟨last, taken, returned⟩ := ih
      refine ⟨last, ?_, returned⟩
      simp [inline, taken]
    | newline p q later => exact ⟨[], rfl, .inl rfl⟩
    | pair p q r later => exact ⟨[⟨'\r', q⟩], rfl, .inr ⟨q, rfl⟩⟩
  obtain ⟨last, taken, rfl | ⟨q, rfl⟩⟩ := ending
  · rw [taken, List.append_nil]
    exact .comment rfl
  · have trimmed : Text.trim (Cell.chars (cells.takeWhile (·.char != '\n') ++ [⟨'\r', q⟩])) =
        Text.trim (Cell.chars (cells.takeWhile (·.char != '\n'))) := by
      rw [chars_append]
      exact Text.trimWhile_concat rfl _
    rw [taken, Piece.commentOf, Piece.commentOf, trimmed]
    exact .comment rfl

theorem ofCell_same (ordinary : Ordinary flavor) {c : Cell} (inline : c.char ≠ '\n')
    (plain : c.char ≠ '\r') (h : Returned cells more) :
    Agree (c :: cells) Piece.Begin (Piece.ofCell flavor c cells) (Piece.ofCell flavor c more) := by
  unfold Piece.ofCell
  rw [startsWith_same (by decide) (by decide) h, startsWith_same (by decide) (by decide) h]
  split_ifs with closing opening block line
  · exact .ok ⟨.closing c.pos, h⟩
  · exact .ok ⟨.opening ⟨by simp, .nil⟩ c.pos, h⟩
  · obtain ⟨d, rest, later, rfl, rfl, -, next⟩ := exists_of_startsWith (by decide) h block.2
    have read : Option.Rel Reading.Same (readComment [] rest) (readComment [] later) :=
      readComment_same .nil next
    have closed : ∀ r, readComment [] rest = some r → ∃ star slash body,
        r.1 = slash :: star :: body ∧ star.char = '*' ∧ slash.char = '/' :=
      fun r => readComment_closed
    simp only [List.drop_succ_cons, List.drop_zero]
    generalize readComment [] rest = r at *
    generalize readComment [] later = r' at *
    cases read with
    | none => exact .error _
    | @some a b same =>
      exact .ok ⟨commentOf_same c false (body_same same (closed a rfl)), same.rest⟩
  · obtain ⟨d, rest, later, rfl, rfl, -, next⟩ := exists_of_startsWith (by decide) h line.2.2
    exact .ok ⟨lineComment_same c next, afterLine_same h⟩
  · have read : Agree (c :: cells) Reading.Same (readStatement flavor 0 [] (c :: cells))
        (readStatement flavor 0 [] (c :: more)) :=
      readStatement_same ordinary .nil (.keep c inline plain h)
    exact read.map fun a b same => ofStatement_same same.buffer same.rest

theorem next_same (ordinary : Ordinary flavor) (h : Returned cells more) :
    Agree cells (Option.Rel Piece.Begin) (Piece.next flavor cells) (Piece.next flavor more) := by
  have gap := h.dropWhile (p := Piece.isGap) (b := true) fun _ => ⟨rfl, rfl⟩
  have first := List.head?_dropWhile_not Piece.isGap cells
  have within : cells.dropWhile Piece.isGap <:+ cells := List.dropWhile_suffix _
  unfold Piece.next
  generalize cells.dropWhile Piece.isGap = left at *
  generalize more.dropWhile Piece.isGap = right at *
  cases gap with
  | nil => exact .ok .none
  | keep c inline plain later =>
    have read := (ofCell_same ordinary inline plain later).mono within
    exact read.map fun p q same => .some same
  | newline => cases first
  | pair => cases first

end Pieces

/-! ## Outlines -/

structure OpenBlock.Same (b c : OpenBlock) : Prop where
  prelude : c.prelude.withoutReturns = b.prelude.withoutReturns
  start : c.start = b.start
  opener : c.opener = b.opener
  before : c.before.map Node.withoutReturns = b.before.map Node.withoutReturns

structure Outline.Same (o p : Outline) : Prop where
  nodes : p.nodes.map Node.withoutReturns = o.nodes.map Node.withoutReturns
  blocks : List.Forall₂ OpenBlock.Same o.blocks p.blocks

namespace Outline

variable {limit : Option Nat} {o o' : Outline} {whole : List Cell}

theorem add_same {p q : Piece} (same : o.Same o') (next : p.Same q) :
    Agree whole Outline.Same (o.add flavor limit p) (o'.add flavor limit q) := by
  cases next with
  | comment text =>
    refine .ok ⟨?_, same.blocks⟩
    simp only [List.map_cons, Node.withoutReturns, text, same.nodes]
  | @statement text text' texts =>
    have node : (nodeOf flavor text').map (Option.map Node.withoutReturns) =
        (nodeOf flavor text).map (Option.map Node.withoutReturns) :=
      nodeOf_same texts.returned texts.begins
    rw [add, add]
    generalize nodeOf flavor text = made at *
    generalize nodeOf flavor text' = made' at *
    cases made with
    | error e =>
      cases made' with
      | error e' =>
        cases node
        exact .error e
      | ok n' => cases node
    | ok n =>
      cases made' with
      | error e' => cases node
      | ok n' =>
        cases n with
        | none =>
          cases n' with
          | none => exact .ok same
          | some n' => cases node
        | some n =>
          cases n' with
          | none => cases node
          | some n' =>
            have node' : n'.withoutReturns = n.withoutReturns :=
              Option.some.inj (Except.ok.inj node)
            refine .ok ⟨?_, same.blocks⟩
            rw [List.map_cons, List.map_cons, node', same.nodes]
  | @opening text text' texts brace =>
    have full : o'.isFull limit = o.isFull limit := by
      unfold isFull
      rw [same.blocks.length_eq]
    rw [add, add, full, texts.head?_eq]
    split
    · exact .error _
    · have opened : OpenBlock.Same ⟨preludeOf text, (text.head?.map Cell.pos).getD brace, brace, o.nodes⟩
          ⟨preludeOf text', (text.head?.map Cell.pos).getD brace, brace, o'.nodes⟩ :=
        ⟨withoutReturns_preludeOf texts.returned, rfl, rfl, same.nodes⟩
      exact .ok ⟨rfl, .cons opened same.blocks⟩
  | closing brace =>
    obtain ⟨nodes, blocks⟩ := o
    obtain ⟨nodes', blocks'⟩ := o'
    obtain ⟨sameNodes, sameBlocks⟩ := same
    cases sameBlocks with
    | nil => exact .error _
    | @cons b b' blocks blocks' block later =>
      have closed : (Node.block b'.prelude b'.start b'.opener nodes'.reverse).withoutReturns =
          (Node.block b.prelude b.start b.opener nodes.reverse).withoutReturns := by
        simp only [Node.withoutReturns, Node.allWithoutReturns_eq_map, List.map_reverse,
          block.prelude, block.start, block.opener, sameNodes]
      refine .ok ⟨?_, later⟩
      rw [List.map_cons, List.map_cons, closed, block.before]

theorem finish_same (same : o.Same o') :
    Agree whole (fun ns ns' => ns'.map Node.withoutReturns = ns.map Node.withoutReturns)
      o.finish o'.finish := by
  obtain ⟨nodes, blocks⟩ := o
  obtain ⟨nodes', blocks'⟩ := o'
  obtain ⟨sameNodes, sameBlocks⟩ := same
  cases sameBlocks with
  | nil =>
    refine .ok ?_
    rw [List.map_reverse, List.map_reverse, sameNodes]
  | cons block later =>
    unfold finish
    simp only [block.opener]
    exact .error _

theorem readAll_same {cells more : List Cell} (ordinary : Ordinary flavor) (same : o.Same o')
    (h : Returned cells more) :
    Agree cells (fun ns ns' => ns'.map Node.withoutReturns = ns.map Node.withoutReturns)
      (o.readAll flavor limit cells) (o'.readAll flavor limit more) := by
  induction size : cells.length using Nat.strongRecOn generalizing cells more o o' with
  | ind n ih =>
    subst size
    rw [readAll_eq, readAll_eq]
    apply (next_same ordinary h).bind
    intro next next' read begun
    cases begun with
    | none => exact finish_same same
    | @some p q begun =>
      apply (add_same same begun.piece).bind
      intro o o' _ same
      exact (ih _ (Piece.length_next_lt read) same begun.rest rfl).mono (Piece.suffix_next read)

end Outline

theorem parse_returned (ordinary : Ordinary flavor) {text : List Char} (plain : '\r' ∉ text) :
    Agree (Cell.ofChars .start (Text.dropByteOrderMark text))
      (fun s s' => s'.withoutReturns = s.withoutReturns)
      (parse flavor text) (parse flavor (Text.crlf text)) := by
  have visible : '\r' ∉ Text.dropByteOrderMark text :=
    fun mem => plain ((Text.dropByteOrderMark_suffix text).subset mem)
  unfold parse parseWithin
  rw [Text.dropByteOrderMark_crlf]
  apply (Outline.readAll_same ordinary ⟨rfl, .nil⟩ (returned_crlf visible .start)).map
  intro ns ns' same
  simp only [Sheet.withoutReturns, Node.allWithoutReturns_eq_map, same]

end SheetLint.Brace
