import SheetLint.Proofs.Brace.Reading

/-!
The nesting limit. Reading within a limit takes the same way as reading without one, up to an opening
brace where as many blocks are open as may be, and there it ends (`parse_cut_off`). So a text whose
blocks stay within the limit has the same tree, and any other is refused at the first block that is too
deep, unless something before that block has been refused already.
-/

namespace SheetLint

/-! ## Depths -/

structure Nesting where
  depth : Nat
  opener : Position
deriving DecidableEq, Repr

namespace Node

mutual

def nestings (depth : Nat) : Node → List Nesting
  | .block _ _ opener nodes => ⟨depth + 1, opener⟩ :: nestingsAll (depth + 1) nodes
  | .comment _ => []
  | .declaration _ => []
  | .statement _ _ => []

def nestingsAll (depth : Nat) : List Node → List Nesting
  | [] => []
  | n :: ns => nestings depth n ++ nestingsAll depth ns

end

theorem nestingsAll_append (depth : Nat) (ms ns : List Node) :
    nestingsAll depth (ms ++ ns) = nestingsAll depth ms ++ nestingsAll depth ns := by
  induction ms with
  | nil => rfl
  | cons m ms ih => rw [List.cons_append, nestingsAll, nestingsAll, ih, List.append_assoc]

theorem nestingsAll_reverse_cons (depth : Nat) (n : Node) (ns : List Node) :
    nestingsAll depth (n :: ns).reverse = nestingsAll depth ns.reverse ++ n.nestings depth := by
  rw [List.reverse_cons, nestingsAll_append, nestingsAll, nestingsAll, List.append_nil]

theorem nestings_of_bare {n : Node} (bare : n.block? = none) (depth : Nat) :
    n.nestings depth = [] := by
  cases n with
  | block => cases bare
  | comment | declaration | statement => rfl

end Node

def Sheet.nestings (s : Sheet) : List Nesting :=
  Node.nestingsAll 0 s.nodes

namespace Brace

theorem block?_nodeOf {flavor : Flavor} {text : List Cell} {n : Node}
    (h : nodeOf flavor text = .ok (some n)) : n.block? = none := by
  unfold nodeOf at h
  repeat' split at h
  all_goals cases h
  all_goals rfl

def Piece.nestings (depth : Nat) : Piece → List Nesting
  | .opening _ brace => [⟨depth + 1, brace⟩]
  | _ => []

namespace Outline

def nestingsBefore : List OpenBlock → List Nesting
  | [] => []
  | b :: blocks =>
    nestingsBefore blocks ++ Node.nestingsAll blocks.length b.before.reverse ++
      [⟨blocks.length + 1, b.opener⟩]

def nestings (o : Outline) : List Nesting :=
  nestingsBefore o.blocks ++ Node.nestingsAll o.blocks.length o.nodes.reverse

variable {flavor : Flavor} {limit : Option Nat} {o o' : Outline}

theorem nestings_cons (n : Node) (nodes : List Node) (blocks : List OpenBlock) :
    nestings ⟨n :: nodes, blocks⟩ = nestings ⟨nodes, blocks⟩ ++ n.nestings blocks.length := by
  rw [nestings, nestings, Node.nestingsAll_reverse_cons, List.append_assoc]

theorem nestings_add {piece : Piece} (added : o.add flavor limit piece = .ok o') :
    o'.nestings = o.nestings ++ piece.nestings o.blocks.length := by
  cases piece with
  | comment c =>
    cases added
    exact nestings_cons _ _ _
  | statement text =>
    simp only [add] at added
    split at added
    · cases added
    · cases added
      exact (List.append_nil _).symm
    next node =>
      cases added
      rw [nestings_cons, Node.nestings_of_bare (block?_nodeOf node)]
      rfl
  | opening text brace =>
    simp only [add] at added
    split at added
    · cases added
    · cases added
      simp [nestings, nestingsBefore, Node.nestingsAll, Piece.nestings]
  | closing brace =>
    simp only [add] at added
    split at added
    · cases added
    next b blocks open' =>
      cases added
      rw [nestings_cons]
      simp [nestings, nestingsBefore, open', Node.nestings, Piece.nestings]

theorem nestings_finish {nodes : List Node} (finished : o.finish = .ok nodes) :
    Node.nestingsAll 0 nodes = o.nestings := by
  unfold finish at finished
  split at finished
  next closed =>
    cases finished
    simp [nestings, nestingsBefore, closed]
  · cases finished

/-! ## The way of a reading -/

inductive Reaches (flavor : Flavor) (limit : Option Nat) :
    Outline → List Cell → Outline → List Cell → Prop
  | refl (o : Outline) (cells : List Cell) : Reaches flavor limit o cells o cells
  | next {o mid o' : Outline} {cells rest left : List Cell} {piece : Piece}
    (read : Piece.next flavor cells = .ok (some (piece, rest)))
    (added : o.add flavor limit piece = .ok mid) (later : Reaches flavor limit mid rest o' left) :
    Reaches flavor limit o cells o' left

inductive Ends (flavor : Flavor) (limit : Option Nat) (o : Outline) (left : List Cell) :
    Except ParseError (List Node) → Prop
  | unreadable {e : ParseError} (failed : Piece.next flavor left = .error e) :
    Ends flavor limit o left (.error e)
  | refused {e : ParseError} {piece : Piece} {rest : List Cell}
    (read : Piece.next flavor left = .ok (some (piece, rest)))
    (failed : o.add flavor limit piece = .error e) : Ends flavor limit o left (.error e)
  | finished {r : Except ParseError (List Node)} (done : Piece.next flavor left = .ok none)
    (result : o.finish = r) : Ends flavor limit o left r

variable {cells left rest : List Cell}

theorem Reaches.trans {o'' : Outline} {later : List Cell}
    (first : Reaches flavor limit o cells o' left) (second : Reaches flavor limit o' left o'' later) :
    Reaches flavor limit o cells o'' later := by
  induction first with
  | refl => exact second
  | next read added _ ih => exact .next read added (ih second)

theorem Reaches.readAll_eq (h : Reaches flavor limit o cells o' left) :
    o.readAll flavor limit cells = o'.readAll flavor limit left := by
  induction h with
  | refl => rfl
  | next read added _ ih =>
    rw [Outline.readAll_eq, read, ← ih]
    simp only [Except.bind, Option.elim_some, added]

theorem Reaches.suffix (h : Reaches flavor limit o cells o' left) : left <:+ cells := by
  induction h with
  | refl => exact List.suffix_rfl
  | next read _ _ ih => exact ih.trans (Piece.suffix_next read)

theorem Reaches.nestings_prefix (h : Reaches flavor limit o cells o' left) :
    o.nestings <+: o'.nestings := by
  induction h with
  | refl => exact List.prefix_rfl
  | next _ added _ ih =>
    rw [nestings_add added] at ih
    exact (List.prefix_append _ _).trans ih

theorem Ends.readAll_eq {r : Except ParseError (List Node)} (h : Ends flavor limit o left r) :
    o.readAll flavor limit left = r := by
  rw [Outline.readAll_eq]
  cases h with
  | unreadable failed =>
    rw [failed]
    rfl
  | refused read failed =>
    rw [read]
    simp only [Except.bind, Option.elim_some, failed]
  | finished done result =>
    rw [done]
    exact result

theorem exists_ends (flavor : Flavor) (limit : Option Nat) (o : Outline) (cells : List Cell) :
    ∃ o' left, Reaches flavor limit o cells o' left ∧
      Ends flavor limit o' left (o.readAll flavor limit cells) := by
  fun_induction readAll flavor limit o cells with
  | case1 o cells e failed => exact ⟨o, cells, .refl o cells, .unreadable failed⟩
  | case2 o cells done => exact ⟨o, cells, .refl o cells, .finished done rfl⟩
  | case3 o cells piece rest read e failed => exact ⟨o, cells, .refl o cells, .refused read failed⟩
  | case4 o cells piece rest read mid added ih =>
    obtain ⟨o', left, reaches, ends⟩ := ih
    exact ⟨o', left, .next read added reaches, ends⟩

/-! ## Within a limit -/

variable {n : Nat}

theorem add_limited (flavor : Flavor) (within : o.blocks.length ≤ n) (piece : Piece) :
    o.add flavor (some n) piece = o.add flavor none piece ∨
      ∃ text brace, piece = .opening text brace ∧ o.blocks.length = n ∧
        o.add flavor (some n) piece = .error ⟨.nestingTooDeep, brace⟩ := by
  cases piece with
  | opening text brace =>
    by_cases room : o.blocks.length = n
    · exact .inr ⟨text, brace, rfl, room, by simp [add, isFull, room]⟩
    · exact .inl (by simp [add, isFull, Nat.lt_of_le_of_ne within room])
  | comment | statement | closing => exact .inl rfl

theorem add_unlimited {piece : Piece} (added : o.add flavor (some n) piece = .ok o') :
    o.add flavor none piece = .ok o' := by
  cases piece with
  | opening text brace =>
    simp only [add] at added ⊢
    split at added
    · cases added
    · exact added
  | comment | statement | closing => exact added

structure Within (n : Nat) (o : Outline) : Prop where
  open_le : o.blocks.length ≤ n
  depth_le : ∀ b ∈ o.nestings, b.depth ≤ n

theorem within_empty (n : Nat) : Within n .empty :=
  ⟨Nat.zero_le n, List.forall_mem_nil _⟩

theorem Within.add {piece : Piece} (h : Within n o) (added : o.add flavor (some n) piece = .ok o') :
    Within n o' := by
  have opened : o'.blocks.length ≤ n ∧ ∀ b ∈ piece.nestings o.blocks.length, b.depth ≤ n := by
    cases piece with
    | comment c =>
      cases added
      exact ⟨h.open_le, List.forall_mem_nil _⟩
    | statement text =>
      simp only [Outline.add] at added
      split at added
      all_goals cases added
      all_goals exact ⟨h.open_le, List.forall_mem_nil _⟩
    | opening text brace =>
      simp only [Outline.add, isFull, decide_eq_true_eq] at added
      split at added
      · cases added
      next full =>
        cases added
        have room : o.blocks.length + 1 ≤ n := Nat.lt_of_not_le full
        exact ⟨room, List.forall_mem_singleton.2 room⟩
    | closing brace =>
      simp only [Outline.add] at added
      split at added
      · cases added
      next b blocks open' =>
        cases added
        have le := h.open_le
        rw [open', List.length_cons] at le
        exact ⟨Nat.le_of_succ_le le, List.forall_mem_nil _⟩
  refine ⟨opened.1, ?_⟩
  rw [nestings_add added, List.forall_mem_append]
  exact ⟨h.depth_le, opened.2⟩

theorem Reaches.within (h : Reaches flavor (some n) o cells o' left) (start : Within n o) :
    Within n o' := by
  induction h with
  | refl => exact start
  | next _ added _ ih => exact ih (start.add added)

theorem Reaches.unlimited (h : Reaches flavor (some n) o cells o' left) :
    Reaches flavor none o cells o' left := by
  induction h with
  | refl => exact .refl _ _
  | next read added _ ih => exact .next read (add_unlimited added) ih

structure Overflows (flavor : Flavor) (n : Nat) (cells : List Cell) (o : Outline) (left text : List Cell)
    (brace : Position) (rest : List Cell) : Prop where
  reaches : Reaches flavor (some n) .empty cells o left
  full : o.blocks.length = n
  read : Piece.next flavor left = .ok (some (.opening text brace, rest))

theorem readAll_limited (flavor : Flavor) (n : Nat) (cells : List Cell) :
    (empty.readAll flavor (some n) cells = empty.readAll flavor none cells ∧
      ∀ nodes, empty.readAll flavor (some n) cells = .ok nodes →
        ∀ b ∈ Node.nestingsAll 0 nodes, b.depth ≤ n) ∨
      ∃ o left text brace rest, Overflows flavor n cells o left text brace rest ∧
        empty.readAll flavor (some n) cells = .error ⟨.nestingTooDeep, brace⟩ := by
  obtain ⟨o, left, reaches, ends⟩ := exists_ends flavor (some n) empty cells
  have within : Within n o := reaches.within (within_empty n)
  generalize empty.readAll flavor (some n) cells = r at *
  rw [reaches.unlimited.readAll_eq]
  cases ends with
  | @unreadable e failed =>
    have ends : Ends flavor none o left (.error e) := .unreadable failed
    exact .inl ⟨ends.readAll_eq.symm, nofun⟩
  | finished done result =>
    have ends : Ends flavor none o left r := .finished done result
    refine .inl ⟨ends.readAll_eq.symm, ?_⟩
    rintro nodes rfl
    rw [nestings_finish result]
    exact within.depth_le
  | @refused e piece rest read failed =>
    -- Up to here both readings have gone alike, and they part only at a brace that is refused.
    rcases add_limited flavor within.open_le piece with
      same | ⟨text, brace, rfl, full, refused⟩
    · have ends : Ends flavor none o left (.error e) := .refused read (same ▸ failed)
      exact .inl ⟨ends.readAll_eq.symm, nofun⟩
    · rw [refused] at failed
      cases failed
      exact .inr ⟨o, left, text, brace, rest, ⟨reaches, full, read⟩, rfl⟩

/-- Whether reading without a limit comes to the brace that opens block number `depth` of those that
are open then, with the text `rest` after it. -/
def Opens (flavor : Flavor) (cells : List Cell) (depth : Nat) (brace : Position) (rest : List Cell) :
    Prop :=
  ∃ o left text, Reaches flavor none .empty cells o left ∧ o.blocks.length + 1 = depth ∧
    Piece.next flavor left = .ok (some (.opening text brace, rest))

/-- Whether reading without a limit gives up with an error, the text `stop` left. -/
def GivesUp (flavor : Flavor) (cells stop : List Cell) (e : ParseError) : Prop :=
  ∃ o, Reaches flavor none .empty cells o stop ∧ Ends flavor none o stop (.error e)

namespace Overflows

variable {text : List Cell} {brace : Position}

theorem opens (h : Overflows flavor n cells o left text brace rest) :
    Opens flavor cells (n + 1) brace rest :=
  ⟨o, left, text, h.reaches.unlimited, by rw [h.full], h.read⟩

theorem exists_passed (h : Overflows flavor n cells o left text brace rest) :
    ∃ mid, Reaches flavor none .empty cells mid rest ∧
      mid.nestings = o.nestings ++ [⟨n + 1, brace⟩] := by
  obtain ⟨mid, added⟩ : ∃ mid, o.add flavor none (.opening text brace) = .ok mid := ⟨_, rfl⟩
  refine ⟨mid, h.reaches.unlimited.trans (.next h.read added (.refl _ _)), ?_⟩
  rw [nestings_add added, h.full]
  rfl

theorem find?_nestings (h : Overflows flavor n cells o left text brace rest) {nodes : List Node}
    (read : empty.readAll flavor none cells = .ok nodes) :
    (Node.nestingsAll 0 nodes).find? (·.depth == n + 1) = some ⟨n + 1, brace⟩ := by
  obtain ⟨mid, passed, nestings⟩ := h.exists_passed
  rw [passed.readAll_eq] at read
  obtain ⟨o', stop, later, ends⟩ := exists_ends flavor none mid rest
  rw [read] at ends
  cases ends with
  | finished done result =>
    obtain ⟨more, whole⟩ := later.nestings_prefix
    have within : Within n o := h.reaches.within (within_empty n)
    have before : o.nestings.find? (·.depth == n + 1) = none := by
      rw [List.find?_eq_none]
      intro b mem same
      have := within.depth_le b mem
      rw [beq_iff_eq.1 same] at this
      exact Nat.not_succ_le_self n this
    rw [nestings_finish result, ← whole, nestings, List.append_assoc, List.find?_append, before]
    simp

theorem exists_givesUp (h : Overflows flavor n cells o left text brace rest) {e : ParseError}
    (read : empty.readAll flavor none cells = .error e) :
    ∃ stop, stop <:+ rest ∧ GivesUp flavor cells stop e := by
  obtain ⟨mid, passed, -⟩ := h.exists_passed
  rw [passed.readAll_eq] at read
  obtain ⟨o', stop, later, ends⟩ := exists_ends flavor none mid rest
  rw [read] at ends
  exact ⟨stop, later.suffix, o', passed.trans later, ends⟩

end Overflows

end Outline

theorem Piece.brace_of_ofCell {flavor : Flavor} {c : Cell} {cells rest text : List Cell}
    {brace : Position} (read : ofCell flavor c cells = .ok (.opening text brace, rest)) :
    ⟨'{', brace⟩ :: rest <:+ c :: cells := by
  unfold ofCell at read
  split_ifs at read with closing opening block line
  · cases read
  · cases read
    obtain ⟨char, pos⟩ := c
    obtain rfl : char = '{' := opening
    exact List.suffix_rfl
  · split at read <;> cases read
  · cases read
  · obtain ⟨r, collected, made⟩ := map_eq_ok_iff.1 read
    have later := readStatement_suffix collected
    unfold ofStatement at made
    split at made
    · cases made
    next d more remains =>
      split_ifs at made with brace
      · cases made
        rw [remains] at later
        rwa [← brace]
      · cases made
      · cases made

theorem Piece.brace_of_next {flavor : Flavor} {cells rest text : List Cell} {brace : Position}
    (read : next flavor cells = .ok (some (.opening text brace, rest))) :
    ⟨'{', brace⟩ :: rest <:+ cells := by
  obtain ⟨c, more, cut, made⟩ := next_eq_some_iff.1 read
  have within := brace_of_ofCell made
  rw [← cut] at within
  exact within.trans (List.dropWhile_suffix _)

/-! ## The limit -/

inductive CutOff (flavor : Flavor) (source : List Cell) (n : Nat) :
    Except ParseError Sheet → Except ParseError Sheet → Prop
  | same {sheet : Sheet} (within : ∀ b ∈ sheet.nestings, b.depth ≤ n) :
    CutOff flavor source n (.ok sheet) (.ok sheet)
  | tooDeep {sheet : Sheet} {b : Nesting} (first : sheet.nestings.find? (·.depth == n + 1) = some b) :
    CutOff flavor source n (.ok sheet) (.error ⟨.nestingTooDeep, b.opener⟩)
  | refused (e : ParseError) : CutOff flavor source n (.error e) (.error e)
  | before {e : ParseError} {brace : Position} {rest stop : List Cell}
    (opener : ⟨'{', brace⟩ :: rest <:+ source) (opens : Outline.Opens flavor source (n + 1) brace rest)
    (later : stop <:+ rest) (givesUp : Outline.GivesUp flavor source stop e) :
    CutOff flavor source n (.error e) (.error ⟨.nestingTooDeep, brace⟩)

theorem cutOff_parseWithin (flavor : Flavor) (n : Nat) (text : List Char) :
    CutOff flavor (Cell.ofChars .start (Text.dropByteOrderMark text)) n
      (parseWithin flavor none text) (parseWithin flavor (some n) text) := by
  unfold parseWithin
  generalize Cell.ofChars .start (Text.dropByteOrderMark text) = cells
  rcases Outline.readAll_limited flavor n cells with
    ⟨same, within⟩ | ⟨o, left, text, brace, rest, overflows, cut⟩
  · simp only [← same]
    generalize Outline.empty.readAll flavor (some n) cells = r at *
    cases r with
    | error e => exact .refused e
    | ok nodes => exact .same (within nodes rfl)
  · have opener := (Piece.brace_of_next overflows.read).trans overflows.reaches.suffix
    simp only [cut]
    cases read : Outline.empty.readAll flavor none cells with
    | error e =>
      obtain ⟨stop, later, givesUp⟩ := overflows.exists_givesUp read
      exact .before opener overflows.opens later givesUp
    | ok nodes => exact .tooDeep (overflows.find?_nestings read)

/-- The nesting limit does nothing but end a reading. A text whose blocks stay within it has the same
tree; a text with a block that is too deep is refused at the first such block; and a text that is refused
without a limit is refused for the same reason, or at a brace before the place where reading without a
limit gives up, which opens one block more than may be open. -/
theorem parse_cut_off (flavor : Flavor) (text : List Char) :
    (∀ sheet, parseWithin flavor none text = .ok sheet →
      ((∀ b ∈ sheet.nestings, b.depth ≤ 128) → parse flavor text = .ok sheet) ∧
      ((∃ b ∈ sheet.nestings, 128 < b.depth) →
        ∃ b, sheet.nestings.find? (·.depth == 129) = some b ∧
          parse flavor text = .error ⟨.nestingTooDeep, b.opener⟩)) ∧
    (∀ e, parseWithin flavor none text = .error e →
      parse flavor text = .error e ∨
      ∃ brace rest stop, parse flavor text = .error ⟨.nestingTooDeep, brace⟩ ∧
        ⟨'{', brace⟩ :: rest <:+ Cell.ofChars .start (Text.dropByteOrderMark text) ∧
        Outline.Opens flavor (Cell.ofChars .start (Text.dropByteOrderMark text)) 129 brace rest ∧
        stop <:+ rest ∧
        Outline.GivesUp flavor (Cell.ofChars .start (Text.dropByteOrderMark text)) stop e) ∧
    ∀ sheet, parse flavor text = .ok sheet → ∀ b ∈ sheet.nestings, b.depth ≤ 128 := by
  have cutOff : CutOff flavor _ 128 (parseWithin flavor none text) (parse flavor text) :=
    cutOff_parseWithin flavor 128 text
  generalize parseWithin flavor none text = whole at *
  generalize parse flavor text = cut at *
  cases cutOff with
  | @same sheet within =>
    refine ⟨?_, nofun, ?_⟩
    · rintro _ ⟨⟩
      refine ⟨fun _ => rfl, ?_⟩
      rintro ⟨b, mem, deep⟩
      exact absurd (within b mem) (Nat.not_le.2 deep)
    · rintro _ ⟨⟩
      exact within
  | @tooDeep sheet b first =>
    refine ⟨?_, nofun, nofun⟩
    rintro _ ⟨⟩
    refine ⟨?_, fun _ => ⟨b, first, rfl⟩⟩
    intro within
    have deep := List.find?_some first
    have := within b (List.mem_of_find?_eq_some first)
    rw [beq_iff_eq.1 deep] at this
    exact absurd this (by decide)
  | refused e =>
    refine ⟨nofun, ?_, nofun⟩
    rintro _ ⟨⟩
    exact .inl rfl
  | @before e brace rest stop opener opens later givesUp =>
    refine ⟨nofun, ?_, nofun⟩
    rintro _ ⟨⟩
    exact .inr ⟨brace, rest, stop, rfl, opener, opens, later, givesUp⟩

end Brace

end SheetLint
