import SheetLint.Proofs.Brace.Acceptance
import SheetLint.Proofs.Brace.Progress
import SheetLint.Proofs.Descent

namespace SheetLint.Brace

inductive Statement where
  | whole (node : Option Node) (rest : List Cell)
  | opening (prelude : Prelude) (start brace : Position) (rest : List Cell)

namespace Statement

def rest : Statement → List Cell
  | whole _ rest => rest
  | opening _ _ _ rest => rest

def ofText (flavor : Flavor) (text : List Cell) : List Cell → Except ParseError Statement
  | [] => (nodeOf flavor text).map (whole · [])
  | d :: rest =>
    if d.char = '{' then
      .ok (opening (preludeOf text) ((text.head?.map Cell.pos).getD d.pos) d.pos rest)
    else if d.char = ';' then (nodeOf flavor text).map (whole · rest)
    else (nodeOf flavor text).map (whole · (d :: rest))

def read (flavor : Flavor) (cells : List Cell) : Except ParseError Statement :=
  (readStatement flavor 0 [] cells).bind fun r => ofText flavor (Piece.collected r.1) r.2

end Statement

def visitOf (nodes : List Node) : Except ParseError Statement → Visit (List Cell) OpenBlock
  | .error e => .done (.error e)
  | .ok (.whole node rest) => .next (node.toList ++ nodes) rest
  | .ok (.opening prelude start brace rest) => .enter ⟨prelude, start, brace, nodes⟩ rest

def commentNode (c : Cell) (body : List Cell) (inline : Bool) : Node :=
  .comment ⟨String.ofList (Text.trim (Cell.chars body)), c.pos, inline⟩

def visit (flavor : Flavor) (opener : Option Position) (nodes : List Node) (cells : List Cell) :
    Visit (List Cell) OpenBlock :=
  match cells.dropWhile Cell.isBlank with
  | [] =>
    match opener with
    | some brace => .done (.error ⟨.unclosedBlock, brace⟩)
    | none => .done (.ok (nodes.reverse, []))
  | c :: rest =>
    if c.char = '}' then
      if opener.isNone then .done (.error ⟨.unexpectedBrace, c.pos⟩)
      else .done (.ok (nodes.reverse, rest))
    else if c.char = ';' then .next nodes rest
    else if c.char = '/' ∧ startsWith '*' rest then
      match readComment [] (rest.drop 1) with
      | none => .done (.error ⟨.unclosedComment, c.pos⟩)
      | some (buffer, rest) => .next (commentNode c (buffer.drop 2).reverse false :: nodes) rest
    else if c.char = '/' ∧ flavor.lineComments ∧ startsWith '/' rest then
      .next (commentNode c ((rest.drop 1).takeWhile (·.char != '\n')) true :: nodes) (afterLine rest)
    else visitOf nodes (Statement.read flavor (c :: rest))

def descent (flavor : Flavor) : Descent Cell OpenBlock (Option Position) where
  outermost := none
  inside b := some b.opener
  visit := visit flavor
  place := OpenBlock.opener
  close b inner := .block b.prelude b.start b.opener inner :: b.before

/-! ## Progress -/

section Progress

variable {flavor : Flavor}

theorem suffix_ofText {text cells : List Cell} {s : Statement}
    (made : Statement.ofText flavor text cells = .ok s) : s.rest <:+ cells := by
  unfold Statement.ofText at made
  split at made
  · obtain ⟨n, -, rfl⟩ := map_eq_ok_iff.1 made
    exact List.suffix_rfl
  next d rest =>
    split_ifs at made
    · cases made
      exact List.suffix_cons d rest
    · obtain ⟨n, -, rfl⟩ := map_eq_ok_iff.1 made
      exact List.suffix_cons d rest
    · obtain ⟨n, -, rfl⟩ := map_eq_ok_iff.1 made
      exact List.suffix_rfl

theorem nodeOf_of_ofText {text cells rest : List Cell} {n : Option Node}
    (made : Statement.ofText flavor text cells = .ok (.whole n rest)) : nodeOf flavor text = .ok n := by
  unfold Statement.ofText at made
  split at made
  · obtain ⟨_, node, ⟨⟩⟩ := map_eq_ok_iff.1 made
    exact node
  · split_ifs at made
    · cases made
    all_goals
      obtain ⟨_, node, ⟨⟩⟩ := map_eq_ok_iff.1 made
      exact node

def AtStatement (flavor : Flavor) (cells : List Cell) : Prop :=
  Scan.Begins flavor cells ∧ ∀ c ∈ cells.head?, c.char ≠ ';' ∧ c.char ≠ '}'

theorem readStatement_begun {c : Cell} {rest : List Cell} {r : Reading}
    (here : AtStatement flavor (c :: rest)) (read : readStatement flavor 0 [] (c :: rest) = .ok r) :
    c.char = '{' ∧ r = ([], c :: rest) ∨ r.2 <:+ rest ∧ r.1.getLast? = some c := by
  obtain ⟨begins, other⟩ := here
  obtain ⟨semicolon, closing⟩ := other c rfl
  have later {parens : Nat} {buffer cells : List Cell} (last : buffer.getLast? = some c)
      (within : cells <:+ rest) (read : readStatement flavor parens buffer cells = .ok r) :
      r.2 <:+ rest ∧ r.1.getLast? = some c := by
    refine ⟨(readStatement_suffix read).trans within, ?_⟩
    have first := Scan.readStatement_first read fun empty => by simp [empty] at last
    rw [first, last, Option.some_or]
  have past : rest.drop 1 <:+ rest := List.drop_suffix 1 rest
  have taken : (rest.take 1 ++ [c]).getLast? = some c := by simp
  rw [readStatement_cons] at read
  split_ifs at read with quote comment line braced
  · cases string : readString c.char [c] rest with
    | none => rw [string] at read; cases read
    | some q =>
      rw [string] at read
      have grown := readString_grows string
      exact .inr (later (grown.getLast? (List.cons_ne_nil c [])) grown.suffix read)
  · exact absurd comment begins.not_comment.1
  · exact absurd ⟨line.1, line.2.2⟩ begins.not_comment.2
  · cases inner : readInterpolation 0 (rest.take 1 ++ [c]) (rest.drop 1) with
    | none => rw [inner] at read; cases read
    | some q =>
      rw [inner] at read
      have grown := readInterpolation_grows inner
      have last := (grown.getLast? (by simp)).trans taken
      exact .inr (later last (grown.suffix.trans past) read)
  · exact .inr (later rfl List.suffix_rfl read)
  · exact .inr (later rfl List.suffix_rfl read)
  next stop =>
    cases read
    exact .inl ⟨by simpa [semicolon, closing] using stop.2, rfl⟩
  · exact .inr (later rfl List.suffix_rfl read)

theorem collected_ne_nil {buffer : List Cell} {c : Cell} (last : buffer.getLast? = some c)
    (visible : c.isBlank = false) : Piece.collected buffer ≠ [] := by
  rw [← List.head?_reverse] at last
  obtain ⟨more, begun⟩ := List.head?_eq_some_iff.1 last
  have head := Text.head?_trimWhile visible more
  intro empty
  rw [Piece.collected, begun] at empty
  rw [empty] at head
  cases head

theorem nodeOf_ne_none {text : List Cell} (nonempty : text ≠ []) : nodeOf flavor text ≠ .ok none := by
  cases text with
  | nil => exact absurd rfl nonempty
  | cons c rest =>
    rw [nodeOf]
    split_ifs <;> intro h <;> cases h

theorem statement_read {cells : List Cell} {s : Statement} (here : AtStatement flavor cells)
    (made : Statement.read flavor cells = .ok s) :
    (∃ taken, taken ≠ [] ∧ cells = taken ++ s.rest) ∧ ∀ rest, s ≠ .whole none rest := by
  obtain ⟨c, rest, rfl, visible, -⟩ := here.1
  obtain ⟨r, read, made⟩ := bind_eq_ok_iff.1 made
  rcases readStatement_begun here read with ⟨opening, rfl⟩ | ⟨suffix, last⟩
  · rw [Statement.ofText, if_pos opening] at made
    cases made
    refine ⟨exists_taken List.suffix_rfl, fun left h => ?_⟩
    cases h
  · refine ⟨exists_taken ((suffix_ofText made).trans suffix), ?_⟩
    rintro left rfl
    exact nodeOf_ne_none (collected_ne_nil last visible) (nodeOf_of_ofText made)

theorem taken_behind {p : Cell → Bool} {cells cells' left : List Cell}
    (cut : cells.dropWhile p = cells') (taken : ∃ taken, taken ≠ [] ∧ cells' = taken ++ left) :
    ∃ taken, taken ≠ [] ∧ cells = taken ++ left := by
  obtain ⟨taken, nonempty, split⟩ := taken
  refine ⟨cells.takeWhile p ++ taken, List.append_ne_nil_of_right_ne_nil _ nonempty, ?_⟩
  rw [List.append_assoc, ← split, ← cut, List.takeWhile_append_dropWhile]

theorem atStatement_of {cells rest : List Cell} {c : Cell} (cut : cells.dropWhile Cell.isBlank = c :: rest)
    (closing : c.char ≠ '}') (semicolon : c.char ≠ ';') (block : ¬(c.char = '/' ∧ startsWith '*' rest))
    (line : ¬(c.char = '/' ∧ flavor.lineComments ∧ startsWith '/' rest)) :
    AtStatement flavor (c :: rest) := by
  have visible : c.isBlank = false := by
    simpa [cut] using List.head?_dropWhile_not Cell.isBlank cells
  refine ⟨⟨c, rest, rfl, visible, block, line⟩, ?_⟩
  rintro _ ⟨⟩
  exact ⟨semicolon, closing⟩

theorem visit_statement {cells : List Cell} (here : AtStatement flavor cells)
    (opener : Option Position) (nodes : List Node) :
    visit flavor opener nodes cells = visitOf nodes (Statement.read flavor cells) := by
  obtain ⟨⟨c, rest, rfl, visible, block, line⟩, other⟩ := here
  obtain ⟨semicolon, closing⟩ := other c rfl
  have kept : (c :: rest).dropWhile Cell.isBlank = c :: rest :=
    List.dropWhile_cons_of_neg (by simp [visible])
  unfold visit
  simp only [kept, if_neg closing, if_neg semicolon, if_neg block, if_neg line]

theorem visit_taken {opener : Option Position} {nodes : List Node} {cells rest : List Cell}
    (turn : (visit flavor opener nodes cells).left? = some rest) :
    ∃ taken, taken ≠ [] ∧ cells = taken ++ rest := by
  unfold visit at turn
  split at turn
  · cases opener <;> cases turn
  next c more cut =>
    have past : more.drop 1 <:+ more := List.drop_suffix 1 more
    apply taken_behind cut
    split_ifs at turn with closing none semicolon block line
    · cases turn
    · cases turn
    · cases turn
      exact exists_taken List.suffix_rfl
    · split at turn
      · cases turn
      next read =>
        cases turn
        exact exists_taken ((readComment_grows read).suffix.trans past)
    · cases turn
      exact exists_taken (List.dropWhile_suffix _)
    · have here : AtStatement flavor (c :: more) := atStatement_of cut closing semicolon block line
      cases made : Statement.read flavor (c :: more) with
      | error e => rw [made] at turn; cases turn
      | ok s =>
        rw [made] at turn
        cases s <;> cases turn <;> exact (statement_read here made).1

theorem visit_suffix {opener : Option Position} {nodes inner : List Node} {cells left : List Cell}
    (turn : visit flavor opener nodes cells = .done (.ok (inner, left))) : left <:+ cells := by
  unfold visit at turn
  split at turn
  · cases opener <;> cases turn
    exact List.nil_suffix
  next c more cut =>
    have within : more <:+ cells :=
      (List.suffix_cons c more).trans (cut ▸ List.dropWhile_suffix _)
    split_ifs at turn with closing none semicolon block line
    · cases turn
    · cases turn
      exact within
    · split at turn <;> cases turn
    · cases made : Statement.read flavor (c :: more) with
      | error e => rw [made] at turn; cases turn
      | ok s => rw [made] at turn; cases s <;> cases turn

theorem descent_advances (flavor : Flavor) : (descent flavor).Advances :=
  ⟨fun _ _ _ _ => visit_taken, fun _ _ _ _ _ => visit_suffix⟩

end Progress

/-! ## Descending and building an outline -/

section Outline

variable {flavor : Flavor} {blocks : List OpenBlock}

def readOn (flavor : Flavor) (nodes : List Node) (blocks : List OpenBlock) (cells : List Cell) :
    Except ParseError (List Node) :=
  Outline.readAll flavor (some Sheet.maxNesting) ⟨nodes, blocks⟩ cells

theorem dropWhile_isGap (cells : List Cell) : cells.dropWhile Piece.isGap =
    (cells.dropWhile Cell.isBlank).dropWhile Piece.isGap := by
  have gaps : ∀ c ∈ cells.takeWhile Cell.isBlank, Piece.isGap c = true := by
    intro c mem
    rw [Piece.isGap, List.mem_takeWhile_imp mem, Bool.true_or]
  have split : (cells.takeWhile Cell.isBlank ++ cells.dropWhile Cell.isBlank).dropWhile Piece.isGap =
      (cells.dropWhile Cell.isBlank).dropWhile Piece.isGap := List.dropWhile_append_of_pos gaps
  rwa [List.takeWhile_append_dropWhile] at split

theorem readOn_ofStatement (nodes : List Node) (buffer rest : List Cell) :
    ((Outline.add flavor (some Sheet.maxNesting) ⟨nodes, blocks⟩ (Piece.ofStatement buffer rest).1).bind
      fun o => o.readAll flavor (some Sheet.maxNesting) (Piece.ofStatement buffer rest).2) =
    (descent flavor).resume (readOn flavor) blocks
      (visitOf nodes (Statement.ofText flavor (Piece.collected buffer) rest)) := by
  have whole (text left : List Cell) :
      ((Outline.add flavor (some Sheet.maxNesting) ⟨nodes, blocks⟩ (.statement text)).bind
        fun o => o.readAll flavor (some Sheet.maxNesting) left) =
      (descent flavor).resume (readOn flavor) blocks
        (visitOf nodes ((nodeOf flavor text).map (.whole · left))) := by
    rw [Outline.add]
    cases nodeOf flavor text with
    | error e => rfl
    | ok n => cases n <;> rfl
  cases rest with
  | nil => exact whole _ _
  | cons d rest =>
    rw [Piece.ofStatement, Statement.ofText]
    split_ifs with opening semicolon
    · simp only [Outline.add, Outline.isFull, visitOf, Descent.resume, decide_eq_true_eq]
      split_ifs <;> rfl
    · exact whole _ _
    · exact whole _ _

theorem readStatement_opening (ordinary : Scan.Ordinary flavor) {c : Cell} (opening : c.char = '{')
    (rest : List Cell) : readStatement flavor 0 [] (c :: rest) = .ok ([], c :: rest) := by
  rw [readStatement_cons]
  simp [opening, ordinary.ne_interpolation]

theorem readOn_eq_resume (ordinary : Scan.Ordinary flavor) (nodes : List Node)
    (blocks : List OpenBlock) (cells : List Cell) :
    readOn flavor nodes blocks cells = (descent flavor).resume (readOn flavor) blocks
      (visit flavor ((descent flavor).context blocks) nodes cells) := by
  rw [readOn, Outline.readAll_eq, Piece.next, dropWhile_isGap]
  unfold visit
  cases cut : cells.dropWhile Cell.isBlank with
  | nil => cases blocks <;> rfl
  | cons c rest =>
    have visible : c.isBlank = false := by
      simpa [cut] using List.head?_dropWhile_not Cell.isBlank cells
    by_cases semicolon : c.char = ';'
    · have gap : Piece.isGap c = true := by simp [Piece.isGap, semicolon]
      have closing : c.char ≠ '}' := by simp [semicolon]
      rw [List.dropWhile_cons_of_pos gap]
      simp only [if_neg closing, if_pos semicolon, Descent.resume]
      rw [readOn, Outline.readAll_eq, Piece.next]
    · have gap : ¬Piece.isGap c = true := by simp [Piece.isGap, visible, semicolon]
      rw [List.dropWhile_cons_of_neg gap]
      simp only [Piece.ofCell, if_neg semicolon]
      by_cases closing : c.char = '}'
      · simp only [if_pos closing]
        cases blocks <;> rfl
      simp only [if_neg closing]
      by_cases opening : c.char = '{'
      · have slash : c.char ≠ '/' := by simp [opening]
        simp only [if_pos opening, slash, false_and, if_false, Statement.read,
          readStatement_opening ordinary opening]
        have read := @readOn_ofStatement flavor blocks nodes [] (c :: rest)
        rwa [Piece.ofStatement, if_pos opening] at read
      simp only [if_neg opening]
      split_ifs with block line
      · cases readComment [] (rest.drop 1) <;> rfl
      · rfl
      · rw [Statement.read]
        cases readStatement flavor 0 [] (c :: rest) with
        | error e => rfl
        | ok r => exact readOn_ofStatement nodes r.1 r.2

def cellsOf (text : String) : List Cell :=
  Cell.ofChars .start (Text.dropByteOrderMark text.toList)

theorem parse_eq_of_ends {d : Dialect} (h : d.flavor? = some flavor) {text : String} {deep : Nat}
    {r : Except ParseError (List Node × List Cell)}
    (ends : (descent flavor).Ends 0 deep none [] (cellsOf text) r) :
    d.parse text = r.map fun body => ⟨body.1⟩ := by
  have read := ends.readOn_eq (readOn_eq_resume (ordinary_of_flavor? h)) [] rfl rfl
  simp only [Dialect.parse, h, parse, parseWithin]
  refine (congrArg (Except.map Sheet.mk) read).trans ?_
  cases r <;> rfl

end Outline

end SheetLint.Brace
