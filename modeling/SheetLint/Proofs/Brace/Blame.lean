import SheetLint.Proofs.Brace.Acceptance
import SheetLint.Proofs.Brace.NestingLimit

namespace SheetLint.Brace

open Scan

namespace Scan

variable {flavor : Flavor}

/-! ## Constructs that do not end -/

inductive Quoted (quote : Char) : List Char → Prop
  | nil : Quoted quote []
  | plain {c : Char} {body : List Char} (other : c ≠ quote) (visible : c ≠ '\\') (inline : c ≠ '\n')
    (said : Quoted quote body) : Quoted quote (c :: body)
  | escaped {body : List Char} (c : Char) (said : Quoted quote body) : Quoted quote ('\\' :: c :: body)

inductive Unclosed (flavor : Flavor) (c : Cell) : List Cell → String → Prop
  | string {rest : List Cell} (quote : c.char = '"' ∨ c.char = '\'')
    (never : ∀ body after, Cell.chars rest = body ++ c.char :: after → ¬Quoted c.char body) :
    Unclosed flavor c rest "Unclosed string"
  | comment {star : Cell} {rest : List Cell} (slash : c.char = '/') (follows : star.char = '*')
    (never : ¬['*', '/'] <:+: Cell.chars rest) : Unclosed flavor c (star :: rest) "Unclosed comment"
  | interpolation {brace : Cell} {rest : List Cell} (opener : flavor.interpolation = some c.char)
    (mark : c.char = '#' ∨ c.char = '@') (follows : brace.char = '{')
    (never : ∀ body, body <+: Cell.chars rest → body.count '}' ≤ body.count '{') :
    Unclosed flavor c (brace :: rest) "Unclosed interpolation"

theorem isSome_readString {quote : Char} (visible : quote ≠ '\\') (inline : quote ≠ '\n')
    {body : List Char} (said : Quoted quote body) (buffer : List Cell) {cells : List Cell}
    {after : List Char} (split : Cell.chars cells = body ++ quote :: after) :
    (readString quote buffer cells).isSome := by
  induction said generalizing buffer cells with
  | nil =>
    obtain ⟨c, rest, rfl, rfl, -⟩ := List.map_eq_cons_iff.1 split
    unfold readString
    simp [visible, inline]
  | plain other visible inline said ih =>
    obtain ⟨c, rest, rfl, rfl, later⟩ := List.map_eq_cons_iff.1 split
    unfold readString
    simp [visible, inline, other, ih _ later]
  | escaped d said ih =>
    obtain ⟨c, rest, rfl, escape, later⟩ := List.map_eq_cons_iff.1 split
    obtain ⟨d, rest, rfl, rfl, further⟩ := List.map_eq_cons_iff.1 later
    simp [readString, escape, ih _ further]

theorem not_closed_of_readComment {buffer cells : List Cell} (failed : readComment buffer cells = none) :
    ¬['*', '/'] <:+: Cell.chars cells := by
  fun_induction readComment buffer cells with
  | case1 => cases failed
  | case2 buffer c d rest closed ih =>
    intro inside
    rcases List.infix_cons_iff.1 inside with ahead | inside
    · obtain ⟨star, ahead⟩ := List.cons_prefix_cons.1 ahead
      exact closed ⟨star.symm, (List.cons_prefix_cons.1 ahead).1.symm⟩
    · exact ih failed inside
  | case3 cells buffer short =>
    intro inside
    have le := inside.length_le
    rcases cells with _ | ⟨c, _ | ⟨d, rest⟩⟩
    · simp [Cell.chars] at le
    · simp [Cell.chars] at le
    · exact short c d rest rfl

theorem count_le_cons {c : Char} {cs : List Char} {depth depth' : Nat}
    (later : ∀ body, body <+: cs → body.count '}' ≤ body.count '{' + depth')
    (first : [c].count '}' + depth' ≤ [c].count '{' + depth) :
    ∀ body, body <+: c :: cs → body.count '}' ≤ body.count '{' + depth := by
  intro body ahead
  rcases List.prefix_cons_iff.1 ahead with rfl | ⟨body, rfl, further⟩
  · exact Nat.zero_le _
  · have := later body further
    rw [List.count_cons, List.count_cons]
    rw [List.count_singleton, List.count_singleton] at first
    omega

theorem count_le_of_readInterpolation {depth : Nat} {buffer cells : List Cell}
    (failed : readInterpolation depth buffer cells = none) :
    ∀ body, body <+: Cell.chars cells → body.count '}' ≤ body.count '{' + depth := by
  fun_induction readInterpolation depth buffer cells with
  | case1 =>
    intro body ahead
    rw [List.prefix_nil.1 ahead]
    exact Nat.zero_le _
  | case2 depth buffer c rest opened ih =>
    refine count_le_cons (ih failed) ?_
    simp [opened, Nat.add_comm]
  | case3 => cases failed
  | case4 buffer c rest opened closed depth ih =>
    refine count_le_cons (ih failed) ?_
    simp [closed, Nat.add_comm]
  | case5 depth buffer c rest opened closed ih =>
    refine count_le_cons (ih failed) ?_
    simp [opened, closed]

theorem unclosed_of_unread (ordinary : Ordinary flavor) {c : Cell} {rest : List Cell}
    {cause : ParseError.Cause} (unread : Unread flavor c rest cause) :
    Unclosed flavor c rest cause.message := by
  cases unread with
  | @string buffer quote failed =>
    refine .string quote fun body after split said => ?_
    have closed := isSome_readString (by rcases quote with h | h <;> rw [h] <;> decide)
      (by rcases quote with h | h <;> rw [h] <;> decide) said buffer split
    simp [failed] at closed
  | comment begins failed =>
    obtain ⟨d, rest, rfl, star⟩ := head?_eq_of_startsWith begins.2
    exact .comment begins.1 star (not_closed_of_readComment failed)
  | interpolation plain begins failed =>
    obtain ⟨d, rest, rfl, brace⟩ := head?_eq_of_startsWith begins.2
    exact .interpolation begins.1 (ordinary _ begins.1) brace (count_le_of_readInterpolation failed)

/-! ## What a scan passes -/

def passed (flavor : Flavor) (s : State) : List Cell → List Item
  | [] => s.finish.getD []
  | c :: rest =>
    match s.step flavor c (rest.head?.map Cell.char) with
    | none => []
    | some (is, t) => is ++ passed flavor t rest

theorem Passes.passed_eq {s t : State} {cells left : List Cell} {is : List Item}
    (h : Passes flavor s cells is t left) : passed flavor s cells = is ++ passed flavor t left := by
  obtain ⟨taken, rfl, ran⟩ := h
  induction taken generalizing s is with
  | nil =>
    cases ran
    rfl
  | cons c taken ih =>
    rw [run, ← head?_char_append] at ran
    split at ran
    · cases ran
    next more onward stepped =>
      obtain ⟨⟨js, u⟩, further, same⟩ := Option.map_eq_some_iff.1 ran
      cases same
      rw [List.cons_append, passed, stepped]
      simp only [ih further, List.append_assoc]

theorem passed_of_scan {s : State} {cells : List Cell} {is : List Item}
    (h : scan flavor s cells = some is) : passed flavor s cells = is := by
  induction cells generalizing s is with
  | nil =>
    have finished : s.finish = some is := h
    rw [passed, finished]
    rfl
  | cons c cells ih =>
    rw [scan] at h
    cases stepped : s.step flavor c (cells.head?.map Cell.char) with
    | none =>
      rw [stepped] at h
      cases h
    | some made =>
      rw [stepped] at h
      obtain ⟨more, scanned, rfl⟩ := Option.map_eq_some_iff.1 h
      rw [passed, stepped]
      exact congrArg (made.1 ++ ·) (ih scanned)

def Item.From (cells : List Cell) : Item → Prop
  | .comment slash _ => slash ∈ cells
  | .statement text _ => text ⊆ cells
  | .opening _ brace => brace ∈ cells ∧ brace.char = '{'
  | .closing brace => brace ∈ cells ∧ brace.char = '}'

theorem Item.From.mono {item : Item} {cells cells' : List Cell} (h : item.From cells)
    (subset : cells ⊆ cells') : item.From cells' := by
  cases item with
  | comment => exact subset h
  | statement => exact List.Subset.trans h subset
  | opening | closing => exact ⟨subset h.1, h.2⟩

section Step

variable {s t : State} {c : Cell} {next : Option Char} {is : List Item}

theorem from_ended (s : State) (ending : Option Cell) : ∀ item ∈ s.ended ending, item.From s.text := by
  unfold State.ended
  split
  · exact List.forall_mem_nil _
  · exact List.forall_mem_singleton.2 (List.Subset.refl _)

theorem from_commented (s : State) (slash : Cell) (inline : Bool) :
    ∀ item ∈ s.commented slash inline, item.From [slash] := by
  unfold State.commented
  split
  · exact List.forall_mem_singleton.2 (.head _)
  · exact List.forall_mem_nil _

def State.Gives (s : State) (c : Cell) (p : List Item × State) : Prop :=
  (∀ item ∈ p.1, item.From (s.text ++ [c])) ∧ p.2.text ⊆ s.text ++ [c]

theorem gives_take (s : State) (c : Cell) (mode : Mode) (parens : Nat) :
    s.Gives c ([], { s.take c mode with parens := parens }) :=
  ⟨List.forall_mem_nil _, List.Subset.refl _⟩

theorem gives_keep (s : State) (c : Cell) (mode : Mode) : s.Gives c ([], s.keep c mode) := by
  refine ⟨List.forall_mem_nil _, ?_⟩
  unfold State.keep
  simp only
  split
  · exact List.nil_subset _
  · exact List.Subset.refl _

theorem gives_ite {P : Prop} [Decidable P] {p q : List Item × State} (pos : P → s.Gives c p)
    (neg : s.Gives c q) : s.Gives c (if P then p else q) := by
  split
  next h => exact pos h
  next => exact neg

theorem gives_stepPlain (flavor : Flavor) (s : State) (c : Cell) (next : Option Char) :
    s.Gives c (s.stepPlain flavor c next) := by
  have ended (ending : Option Cell) : ∀ item ∈ s.ended ending, item.From (s.text ++ [c]) :=
    fun item mem => (from_ended s ending item mem).mono (List.subset_append_left _ _)
  have commented (inline : Bool) : ∀ item ∈ s.commented c inline, item.From (s.text ++ [c]) :=
    fun item mem => (from_commented s c inline item mem).mono (List.subset_append_right _ _)
  have here : c ∈ s.text ++ [c] := List.mem_append_right _ (.head _)
  unfold State.stepPlain
  refine gives_ite (fun _ => gives_take s c _ _) ?_
  refine gives_ite (fun _ => ⟨commented false, (gives_keep s c .opening).2⟩) ?_
  refine gives_ite (fun _ => ⟨commented true, List.subset_append_left _ _⟩) ?_
  refine gives_ite (fun _ => gives_take s c _ _) ?_
  refine gives_ite (fun _ => gives_take s c _ _) ?_
  refine gives_ite (fun _ => gives_take s c _ _) ?_
  refine gives_ite (fun _ => ⟨ended _, List.nil_subset _⟩) ?_
  refine gives_ite (fun opening => ⟨?_, List.nil_subset _⟩) ?_
  · exact List.forall_mem_singleton.2 ⟨here, opening.2⟩
  refine gives_ite (fun closing => ⟨?_, List.nil_subset _⟩) ?_
  · exact List.forall_mem_append.2 ⟨ended _, List.forall_mem_singleton.2 ⟨here, closing.2⟩⟩
  exact gives_ite (fun _ => gives_keep s c _) (gives_take s c _ _)

theorem gives_step (h : s.step flavor c next = some (is, t)) : s.Gives c (is, t) := by
  unfold State.step at h
  split at h
  next => exact Option.some.inj h ▸ gives_stepPlain flavor s c next
  next quote =>
    split at h
    · cases h
    split at h
    · cases h
      exact gives_take s c _ _
    split at h
    all_goals cases h
    all_goals exact gives_take s c _ _
  next quote =>
    cases h
    exact gives_take s c _ _
  next =>
    cases h
    exact gives_keep s c _
  next =>
    cases h
    exact gives_keep s c _
  next =>
    cases h
    exact gives_keep s c _
  next =>
    cases h
    exact ⟨List.forall_mem_nil _, List.subset_append_left _ _⟩
  next depth =>
    split at h
    · cases h
      exact gives_take s c _ _
    split at h
    all_goals cases h
    all_goals exact gives_take s c _ _

theorem from_passed (s : State) (cells : List Cell) :
    ∀ item ∈ passed flavor s cells, item.From (s.text ++ cells) := by
  induction cells generalizing s with
  | nil =>
    unfold passed State.finish
    split
    · exact fun item mem => (from_ended s none item mem).mono (List.subset_append_left _ _)
    · exact fun item mem => (from_ended s none item mem).mono (List.subset_append_left _ _)
    · exact List.forall_mem_nil _
  | cons c rest ih =>
    rw [passed, List.append_cons]
    split
    · exact List.forall_mem_nil _
    next is t stepped =>
      obtain ⟨here, text⟩ := gives_step stepped
      refine List.forall_mem_append.2 ⟨fun item mem => ?_, fun item mem => ?_⟩
      · exact (here item mem).mono (List.subset_append_left _ _)
      · exact (ih t item mem).mono (List.append_subset.2
          ⟨List.Subset.trans text (List.subset_append_left _ _), List.subset_append_right _ _⟩)

theorem from_scan {cells : List Cell} (h : scan flavor .start cells = some is) :
    ∀ item ∈ is, item.From cells := by
  have made := @from_passed flavor .start cells
  rwa [passed_of_scan h] at made

end Step

inductive Opened (flavor : Flavor) : List Item → List Cell → Prop
  | nil : Opened flavor [] []
  | comment {is : List Item} {braces : List Cell} (slash : Cell) (inline : Bool)
    (before : Opened flavor is braces) : Opened flavor (is ++ [.comment slash inline]) braces
  | statement {is : List Item} {braces text : List Cell} (ending : Option Cell)
    (before : Opened flavor is braces) (known : IsStatement flavor text) :
    Opened flavor (is ++ [.statement text ending]) braces
  | opening {is : List Item} {braces : List Cell} (text : List Cell) (brace : Cell)
    (before : Opened flavor is braces) (room : braces.length < Sheet.maxNesting) :
    Opened flavor (is ++ [.opening text brace]) (brace :: braces)
  | closing {is : List Item} {braces : List Cell} {opener : Cell} (brace : Cell)
    (before : Opened flavor is (opener :: braces)) : Opened flavor (is ++ [.closing brace]) braces

theorem Opened.exists_opening {is : List Item} {braces : List Cell} (h : Opened flavor is braces) :
    ∀ brace ∈ braces, ∃ text, .opening text brace ∈ is := by
  have onward {is js : List Item} {braces : List Cell}
      (found : ∀ brace ∈ braces, ∃ text, .opening text brace ∈ is) :
      ∀ brace ∈ braces, ∃ text, .opening text brace ∈ is ++ js := by
    intro brace mem
    obtain ⟨text, among⟩ := found brace mem
    exact ⟨text, List.mem_append_left js among⟩
  induction h with
  | nil => exact List.forall_mem_nil _
  | comment slash inline before ih => exact onward ih
  | statement ending before known ih => exact onward ih
  | opening text brace before room ih =>
    exact List.forall_mem_cons.2 ⟨⟨text, List.mem_append_right _ (.head _)⟩, onward ih⟩
  | closing brace before ih => exact onward (List.forall_mem_cons.1 ih).2

theorem Opened.length_le {is : List Item} {braces : List Cell} (h : Opened flavor is braces) :
    braces.length ≤ Sheet.maxNesting := by
  induction h with
  | nil => exact Nat.zero_le _
  | comment slash inline before ih => exact ih
  | statement ending before known ih => exact ih
  | opening text brace before room ih => exact room
  | closing brace before ih => exact Nat.le_of_succ_le ih

/-! ## From piece to piece -/

theorem Between.passed_eq (ordinary : Ordinary flavor) {s : State} {cells : List Cell}
    {pending : List Item} (h : Between s cells pending) :
    passed flavor s cells = pending ++ passed flavor .start cells := by
  cases h with
  | start => rfl
  | @closing text brace rest begun closes =>
    have closed (text : List Cell) := Passes.passed_eq
      (Passes.plain rest (stepPlain_closing ordinary text closes))
    rw [closed, State.start, closed []]
    simp [State.ended, begun]
  | ended outside =>
    obtain ⟨mode, parens, text⟩ := s
    rcases outside with rfl | rfl <;> simp [passed, State.finish, State.ended]

theorem next_closing {brace : Cell} (closes : brace.char = '}') (rest : List Cell) :
    Piece.next flavor (brace :: rest) = .ok (some (.closing brace.pos, rest)) := by
  have gap : Piece.isGap brace = false := by
    rw [Piece.isGap, Cell.isBlank, closes]
    rfl
  rw [Piece.next, List.dropWhile_cons_of_neg (by simp [gap])]
  simp [Piece.ofCell, closes, Except.map]

theorem Between.stuck (ordinary : Ordinary flavor) {s : State} {cells : List Cell} {pending : List Item}
    (h : Between s cells pending) {e : ParseError} (failed : Piece.next flavor cells = .error e) :
    pending = [] ∧ Stuck flavor s cells e := by
  cases h with
  | start => exact ⟨rfl, yields_next ordinary (.error e) failed⟩
  | closing begun closes => cases (next_closing closes _).symm.trans failed
  | ended => cases failed

theorem Between.passes_next (ordinary : Ordinary flavor) {s : State} {cells rest : List Cell}
    {pending : List Item} {piece : Piece} (h : Between s cells pending)
    (read : Piece.next flavor cells = .ok (some (piece, rest))) :
    ∃ item is t later, item.Reads piece ∧ Passes flavor s cells is t rest ∧ Between t rest later ∧
      is ++ later = pending ++ [item] := by
  cases h with
  | start => exact yields_next ordinary (.ok (piece, rest)) read
  | @closing text brace more begun closes =>
    cases (next_closing closes more).symm.trans read
    refine ⟨.closing brace, _, _, _, rfl, .plain _ (stepPlain_closing ordinary text closes), .start _, ?_⟩
    simp [State.ended, begun]
  | ended => cases read

end Scan

/-! ## What is blamed -/

/-- Whether a cell of a text is what a message about the text speaks of. -/
inductive Blames (flavor : Flavor) (source : List Cell) (c : Cell) : String → Prop
  | unclosed {is : List Item} {s : State} {rest braces : List Cell} {message : String}
    (comes : Passes flavor .start source is s (c :: rest)) (outside : s.mode = .plain)
    (opened : Opened flavor is braces) (unclosed : Unclosed flavor c rest message) :
    Blames flavor source c message
  | unclosedBlock {is : List Item} {braces : List Cell} (whole : scan flavor .start source = some is)
    (opened : Opened flavor is (c :: braces)) (brace : c.char = '{') :
    Blames flavor source c "Unclosed block"
  | nestingTooDeep {is more : List Item} {text braces : List Cell}
    (meets : passed flavor .start source = is ++ .opening text c :: more)
    (opened : Opened flavor is braces) (full : braces.length = 128) (brace : c.char = '{') :
    Blames flavor source c "Nesting too deep"
  | unexpectedBrace {is more : List Item}
    (meets : passed flavor .start source = is ++ .closing c :: more) (opened : Opened flavor is [])
    (brace : c.char = '}') : Blames flavor source c "Unexpected \x7d"
  | unknownWord {is more : List Item} {text braces : List Cell} {ending : Option Cell}
    (meets : passed flavor .start source = is ++ .statement (c :: text) ending :: more)
    (opened : Opened flavor is braces) (visible : c.isBlank = false)
    (unknown : ¬IsStatement flavor (c :: text)) : Blames flavor source c "Unknown word"

def messages : List String :=
  ["Unclosed block", "Nesting too deep", "Unexpected \x7d", "Unclosed comment", "Unclosed string",
    "Unclosed interpolation", "Unknown word"]

section Blame

variable {flavor : Flavor} {source cells left rest : List Cell} {c : Cell} {o o' : Outline}

theorem Blames.message_mem {message : String} (h : Blames flavor source c message) :
    message ∈ messages := by
  cases h with
  | unclosed _ _ _ unclosed => cases unclosed <;> decide
  | _ => decide

theorem eq_of_nodeOf {rest : List Cell} {e : ParseError}
    (failed : nodeOf flavor (c :: rest) = .error e) : e = ⟨.unknownWord, c.pos⟩ := by
  simp only [nodeOf] at failed
  split_ifs at failed
  all_goals cases failed
  rfl

structure Fits (flavor : Flavor) (o : Outline) (is : List Item) (braces : List Cell) : Prop where
  opened : Opened flavor is braces
  blocks : o.blocks.map OpenBlock.opener = braces.map Cell.pos

theorem Fits.length_eq {is : List Item} {braces : List Cell} (h : Fits flavor o is braces) :
    o.blocks.length = braces.length := by
  simpa using congrArg List.length h.blocks

theorem Fits.add {is : List Item} {braces : List Cell} {item : Item} {piece : Piece}
    (h : Fits flavor o is braces) (reads : item.Reads piece)
    (added : o.add flavor (some Sheet.maxNesting) piece = .ok o') :
    ∃ braces', Fits flavor o' (is ++ [item]) braces' := by
  cases item with
  | comment slash inline =>
    obtain ⟨comment, rfl, -⟩ := reads.eq_comment
    cases added
    exact ⟨braces, h.opened.comment slash inline, h.blocks⟩
  | statement text ending =>
    obtain ⟨begun, rfl⟩ := reads.eq_statement
    have known := (add_statement_ok_iff begun o).1 ⟨o', added⟩
    refine ⟨braces, h.opened.statement ending known, ?_⟩
    rw [blocks_add_statement added, h.blocks]
  | opening text brace =>
    obtain ⟨-, rfl⟩ := reads.eq_opening
    simp only [Outline.add, Outline.isFull, decide_eq_true_eq] at added
    split at added
    · cases added
    next room =>
      cases added
      refine ⟨brace :: braces, h.opened.opening text brace ?_, ?_⟩
      · rw [← h.length_eq]
        exact Nat.lt_of_not_le room
      · rw [List.map_cons, List.map_cons, h.blocks]
  | closing brace =>
    obtain rfl := reads.eq_closing
    simp only [Outline.add] at added
    split at added
    · cases added
    next b blocks open' =>
      cases added
      have same := h.blocks
      rw [open', List.map_cons] at same
      obtain ⟨opener, braces, rfl, -, rest⟩ := List.map_eq_cons_iff.1 same.symm
      exact ⟨braces, h.opened.closing brace, rest.symm⟩

theorem Fits.blames {is more : List Item} {braces : List Cell} {item : Item} {piece : Piece}
    {e : ParseError} (h : Fits flavor o is braces) (reads : item.Reads piece)
    (meets : passed flavor .start source = is ++ item :: more)
    (refused : o.add flavor (some Sheet.maxNesting) piece = .error e) :
    ∃ c ∈ source, c.pos = e.pos ∧ Blames flavor source c e.message := by
  have made : item.From source := by
    have among : item ∈ passed flavor .start source := by simp [meets]
    simpa [State.start] using from_passed .start source item among
  cases item with
  | comment slash inline =>
    obtain ⟨comment, rfl, -⟩ := reads.eq_comment
    cases refused
  | statement text ending =>
    obtain ⟨begun, rfl⟩ := reads.eq_statement
    have unknown : ¬IsStatement flavor text := by
      rw [← add_statement_ok_iff begun o]
      rintro ⟨mid, added⟩
      cases refused.symm.trans added
    obtain ⟨c, rest, rfl, visible⟩ := begun
    obtain ⟨others, trimmed⟩ := List.head?_eq_some_iff.1 (Text.head?_trimWhile visible rest)
    have cause : e = ⟨.unknownWord, c.pos⟩ := by
      rw [trimmed] at refused
      simp only [Outline.add] at refused
      split at refused
      next failed =>
        cases refused
        exact eq_of_nodeOf failed
      · cases refused
      · cases refused
    subst cause
    exact ⟨c, made (.head _), rfl, .unknownWord meets h.opened visible unknown⟩
  | opening text brace =>
    obtain ⟨-, rfl⟩ := reads.eq_opening
    simp only [Outline.add, Outline.isFull, decide_eq_true_eq] at refused
    split at refused
    next full =>
      cases refused
      rw [h.length_eq] at full
      exact ⟨brace, made.1, rfl,
        .nestingTooDeep meets h.opened (Nat.le_antisymm h.opened.length_le full) made.2⟩
    · cases refused
  | closing brace =>
    obtain rfl := reads.eq_closing
    simp only [Outline.add] at refused
    split at refused
    next closed =>
      cases refused
      have none : braces = [] := by simpa [closed] using h.blocks.symm
      subst none
      exact ⟨brace, made.1, rfl, .unexpectedBrace meets h.opened made.2⟩
    · cases refused

def Arrives (flavor : Flavor) (source : List Cell) (o : Outline) (left : List Cell) : Prop :=
  ∃ is s pending braces, Passes flavor .start source is s left ∧ Between s left pending ∧
    Fits flavor o (is ++ pending) braces

theorem arrives_of_reaches (ordinary : Ordinary flavor)
    (reaches : Outline.Reaches flavor (some Sheet.maxNesting) o cells o' left)
    (arrives : Arrives flavor source o cells) : Arrives flavor source o' left := by
  induction reaches with
  | refl => exact arrives
  | next read added later ih =>
    obtain ⟨is, s, pending, braces, passes, between, fits⟩ := arrives
    obtain ⟨item, js, t, later, reads, further, between', one⟩ := between.passes_next ordinary read
    obtain ⟨braces', fits'⟩ := fits.add reads added
    refine ih ⟨is ++ js, t, later, braces', passes.trans further, between', ?_⟩
    rwa [List.append_assoc, one, ← List.append_assoc]

theorem blames_of_ends (ordinary : Ordinary flavor) {e : ParseError}
    (arrives : Arrives flavor source o left)
    (ends : Outline.Ends flavor (some Sheet.maxNesting) o left (.error e)) :
    ∃ c ∈ source, c.pos = e.pos ∧ Blames flavor source c e.message := by
  obtain ⟨is, s, pending, braces, passes, between, fits⟩ := arrives
  cases ends with
  | unreadable failed =>
    obtain ⟨rfl, t, c, rest, further, outside, pos, unread⟩ := between.stuck ordinary failed
    have comes := passes.trans further
    rw [List.append_nil] at comes fits
    refine ⟨c, ?_, pos, .unclosed comes outside fits.opened (unclosed_of_unread ordinary unread)⟩
    obtain ⟨taken, rfl, -⟩ := comes
    simp
  | @refused e piece rest read failed =>
    obtain ⟨item, js, t, later, reads, further, between', one⟩ := between.passes_next ordinary read
    have meets : passed flavor .start source = is ++ pending ++ item :: passed flavor .start rest := by
      rw [passes.passed_eq, further.passed_eq, between'.passed_eq ordinary, ← List.append_assoc js, one]
      simp
    exact fits.blames reads meets failed
  | finished done result =>
    have whole : scan flavor .start source = some (is ++ pending) := by
      have rest := scan_next ordinary left
      rw [done] at rest
      rw [passes.scan_eq, between.scan_eq ordinary, rest]
      simp
    unfold Outline.finish at result
    split at result
    · cases result
    next b blocks open' =>
      cases result
      have same := fits.blocks
      rw [open', List.map_cons] at same
      obtain ⟨brace, braces, rfl, pos, -⟩ := List.map_eq_cons_iff.1 same.symm
      obtain ⟨text, among⟩ := fits.opened.exists_opening brace (.head _)
      have made : (Item.opening text brace).From source := from_scan whole _ among
      exact ⟨brace, made.1, pos, .unclosedBlock whole fits.opened made.2⟩

/-- An error names a character of the text, the one that its message speaks of, and there are no other
messages than these seven. -/
theorem parse_error_blames {d : Dialect} (h : d.flavor? = some flavor) {text : String} {e : ParseError}
    (failed : d.parse text = .error e) :
    e.message ∈ messages ∧
      ∃ c ∈ Cell.ofChars .start (Text.dropByteOrderMark text.toList), c.pos = e.pos ∧
        Blames flavor (Cell.ofChars .start (Text.dropByteOrderMark text.toList)) c e.message := by
  simp only [Dialect.parse, h, parse, parseWithin, map_eq_error_iff] at failed
  generalize Cell.ofChars .start (Text.dropByteOrderMark text.toList) = source at *
  obtain ⟨o, left, reaches, ends⟩ :=
    Outline.exists_ends flavor (some Sheet.maxNesting) .empty source
  rw [failed] at ends
  have ordinary := ordinary_of_flavor? h
  have empty : Arrives flavor source .empty source :=
    ⟨[], .start, [], [], .refl _ _, .start source, .nil, rfl⟩
  obtain ⟨c, mem, pos, blames⟩ :=
    blames_of_ends ordinary (arrives_of_reaches ordinary reaches empty) ends
  exact ⟨blames.message_mem, c, mem, pos, blames⟩

theorem parse_error_blames_string :
    Dialect.css.flavor? = some .css ∧
    Dialect.css.parse "\x7b'" = .error ⟨.unclosedString, ⟨1, 2⟩⟩ ∧
    ∃ c ∈ Cell.ofChars .start "\x7b'".toList, c.pos = ⟨1, 2⟩ ∧
      Blames .css (Cell.ofChars .start "\x7b'".toList) c "Unclosed string" := by
  have block : Piece.next .css (Cell.ofChars .start "\x7b'".toList) =
      .ok (some (.opening [] ⟨1, 1⟩, [⟨'\'', ⟨1, 2⟩⟩])) := rfl
  have string : Piece.next .css [⟨'\'', ⟨1, 2⟩⟩] = .error ⟨.unclosedString, ⟨1, 2⟩⟩ := by
    have read : readStatement .css 0 [] [⟨'\'', ⟨1, 2⟩⟩] = .error ⟨.unclosedString, ⟨1, 2⟩⟩ := by
      simp [readStatement, readString]
    have text : [⟨'\'', ⟨1, 2⟩⟩] = Cell.ofChars ⟨1, 2⟩ ['\''] := rfl
    rw [text, next_of_head rfl rfl (by decide), ← text, read]
    rfl
  have failed : Dialect.css.parse "\x7b'" = .error ⟨.unclosedString, ⟨1, 2⟩⟩ := by
    have stops : Outline.empty.readAll .css (some Sheet.maxNesting) (Cell.ofChars .start "\x7b'".toList) =
        .error ⟨.unclosedString, ⟨1, 2⟩⟩ :=
      (Outline.Reaches.next block rfl (.refl _ _)).readAll_eq.trans
        (Outline.Ends.unreadable string).readAll_eq
    exact congrArg (Except.map Sheet.mk) stops
  exact ⟨rfl, failed, (parse_error_blames rfl failed).2⟩

end Blame

end SheetLint.Brace
