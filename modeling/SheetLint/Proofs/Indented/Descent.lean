import SheetLint.Proofs.Descent
import SheetLint.Proofs.Indented.Alignment
import SheetLint.Proofs.Indented.Levels

namespace SheetLint.Indented

/-! ## Lines -/

structure OpenComment where
  body : List Char
  tail : List Char
  lines : List Line

def commentTurn (c : OpenComment) : Turn OpenComment (Option (List Char × List Line)) :=
  match beforeClose? c.tail with
  | some before => .done (some (c.body ++ before, c.lines))
  | none =>
    match c.lines with
    | [] => .done none
    | line :: lines => .next ⟨c.body ++ c.tail ++ ['\n'], line.chars, lines⟩

structure OpenScan where
  used : Option Char
  entries : List Entry
  lines : List Line

def scanTurn (s : OpenScan) : Turn OpenScan (Except ParseError (List Entry)) :=
  match s.lines with
  | [] => .done (.ok s.entries.reverse)
  | line :: lines =>
    let indent := line.chars.takeWhile isIndent
    let content := Text.trimEnd (line.chars.dropWhile isIndent)
    let start : Position := ⟨line.number, indent.length + 1⟩
    if content.isEmpty then .next ⟨s.used, s.entries, lines⟩
    else if indentsWith s.used indent then
      match kindOf content start lines with
      | .error e => .done (.error e)
      | .ok (kind, rest) =>
        .next ⟨s.used.or indent.head?, ⟨indent.length, start, line.chars, kind⟩ :: s.entries, rest⟩
    else .done (.error ⟨.mixedIndentation, ⟨line.number, 1⟩⟩)

theorem computes_commentTurn : Turn.Computes OpenComment.lines commentTurn fun c =>
    (commentBody? c.tail c.lines).map fun r => (c.body ++ r.1, r.2) := by
  refine Turn.Consumes.computes ?_ ?_
  · rintro ⟨body, tail, _ | ⟨line, lines⟩⟩ t here
    · unfold commentTurn at here
      split at here <;> cases here
    · unfold commentTurn at here
      split at here
      · cases here
      · cases here
        exact exists_taken List.suffix_rfl
  · rintro ⟨body, tail, _ | ⟨line, lines⟩⟩
    · simp only [commentTurn, commentBody?]
      cases beforeClose? tail <;> rfl
    · simp only [commentTurn, commentBody?]
      cases beforeClose? tail with
      | some before => rfl
      | none =>
        simp only [Turn.result, Option.map_map]
        congr 1
        funext r
        simp

theorem entriesOf_visible {used : Option Char} {line : Line} {lines : List Line}
    (visible : ¬(Text.trimEnd (line.chars.dropWhile isIndent)).isEmpty = true) :
    entriesOf used (line :: lines) =
      let indent := line.chars.takeWhile isIndent
      let start : Position := ⟨line.number, indent.length + 1⟩
      if indentsWith used indent then
        (kindOf (Text.trimEnd (line.chars.dropWhile isIndent)) start lines).bind fun r =>
          (entriesOf (used.or indent.head?) r.2).map (⟨indent.length, start, line.chars, r.1⟩ :: ·)
      else .error ⟨.mixedIndentation, ⟨line.number, 1⟩⟩ := by
  rw [entriesOf]
  simp only [if_neg visible]
  split_ifs
  · split
    next failed => rw [failed]; rfl
    next read => rw [read]; rfl
  · rfl

theorem computes_scanTurn : Turn.Computes OpenScan.lines scanTurn fun s =>
    (entriesOf s.used s.lines).map (s.entries.reverse ++ ·) := by
  refine Turn.Consumes.computes ?_ ?_
  · rintro ⟨used, entries, _ | ⟨line, lines⟩⟩ t here
    · cases here
    · simp only [scanTurn] at here
      split_ifs at here
      · cases here
        exact exists_taken List.suffix_rfl
      · split at here
        · cases here
        next read =>
          cases here
          exact exists_taken (suffix_of_kindOf read)
  · rintro ⟨used, entries, _ | ⟨line, lines⟩⟩
    · simp [scanTurn, Turn.result, entriesOf, Except.map]
    · simp only [scanTurn]
      split_ifs with blank uniform
      · rw [entriesOf_blank blank]
        rfl
      · rw [entriesOf_visible blank]
        simp only [if_pos uniform]
        cases kindOf (Text.trimEnd (line.chars.dropWhile isIndent))
          ⟨line.number, (line.chars.takeWhile isIndent).length + 1⟩ lines with
        | error e => rfl
        | ok r =>
          simp only [Turn.result, Except.bind, List.reverse_cons, List.append_assoc]
          cases entriesOf (used.or (line.chars.takeWhile isIndent).head?) r.2 <;> rfl
      · rw [entriesOf_visible blank]
        simp only [if_neg uniform]
        rfl

/-! ## Levels -/

def valueTurn (indent : Nat) (s : Declaration × List Entry) :
    Turn (Declaration × List Entry) (Declaration × List Entry) :=
  match s.2 with
  | [] => .done s
  | e :: rest => if indent < e.indent then .next (continued s.1 [e], rest) else .done s

theorem computes_valueTurn (indent : Nat) : Turn.Computes Prod.snd (valueTurn indent) fun s =>
    (continued s.1 (s.2.takeWhile (indent < ·.indent)), s.2.dropWhile (indent < ·.indent)) := by
  refine Turn.Consumes.computes ?_ ?_
  · rintro ⟨d, _ | ⟨e, rest⟩⟩ t here
    · cases here
    · simp only [valueTurn] at here
      split_ifs at here
      cases here
      exact exists_taken List.suffix_rfl
  · rintro ⟨d, _ | ⟨e, rest⟩⟩
    · rfl
    · simp only [valueTurn]
      split_ifs with deeper
      · simp [Turn.result, deeper, continued]
      · simp [Turn.result, deeper, continued]

def visit (indent : Nat) (nodes : List Node) : List Entry → Visit (List Entry) Level
  | [] => .done (.ok (nodes.reverse, []))
  | e :: rest =>
    if e.indent < indent then .done (.ok (nodes.reverse, e :: rest))
    else if indent < e.indent then .done (.error (misplaced e))
    else
      match e.kind, deeper? e.indent rest with
      | .comment text inline, none => .next (.comment ⟨text, e.start, inline⟩ :: nodes) rest
      | .comment _ _, some next => .done (.error (misplaced next))
      | .declaration d, _ =>
        .next (.declaration (continued d (rest.takeWhile (e.indent < ·.indent))) :: nodes)
          (rest.dropWhile (e.indent < ·.indent))
      | .selector text, none =>
        .next (.block (.selector text) e.start (selectorEnd e.start text) [] :: nodes) rest
      | .selector text, some next =>
        .enter ⟨next.indent, .selector text, e.start, selectorEnd e.start text, nodes⟩ rest
      | .atRule name params, none => .next (.statement (.atRule name params) e.start :: nodes) rest
      | .atRule name params, some next =>
        .enter ⟨next.indent, .atRule name params, e.start, e.start, nodes⟩ rest

def descent : Descent Entry Level Nat where
  outermost := 0
  inside := Level.indent
  visit := visit
  place := Level.start
  close l inner := .block l.prelude l.start l.opener inner :: l.before

theorem visit_taken {indent : Nat} {nodes : List Node} {es rest : List Entry}
    (turn : (visit indent nodes es).left? = some rest) : ∃ taken, taken ≠ [] ∧ es = taken ++ rest := by
  cases es with
  | nil => cases turn
  | cons e after =>
    apply exists_taken
    rw [visit] at turn
    split_ifs at turn
    · cases turn
    · cases turn
    · split at turn <;> cases turn
      all_goals first | exact List.suffix_rfl | exact List.dropWhile_suffix _

theorem visit_done {indent : Nat} {nodes inner : List Node} {es left : List Entry}
    (turn : visit indent nodes es = .done (.ok (inner, left))) :
    left = es ∧ ∀ e ∈ left.head?, e.indent < indent := by
  cases es with
  | nil =>
    cases turn
    exact ⟨rfl, nofun⟩
  | cons e after =>
    rw [visit] at turn
    split_ifs at turn with shallow
    · cases turn
      refine ⟨rfl, ?_⟩
      rintro _ ⟨⟩
      exact shallow
    · cases turn
    · split at turn <;> cases turn

theorem descent_advances : descent.Advances :=
  ⟨fun _ _ _ _ => visit_taken, fun _ _ _ _ _ turn => (visit_done turn).1 ▸ List.suffix_rfl⟩

theorem eq_nil_of_ends {depth deep : Nat} {nodes inner : List Node} {es left : List Entry}
    (ends : descent.Ends depth deep 0 nodes es (.ok (inner, left))) : left = [] := by
  obtain ⟨nodes, es, turn⟩ := ends.exists_last
  have shallow := (visit_done turn).2
  cases left with
  | nil => rfl
  | cons e rest => exact absurd (shallow e rfl) (Nat.not_lt_zero _)

def readOn (nodes : List Node) (levels : List Level) (es : List Entry) :
    Except ParseError (List Node) :=
  run Sheet.maxNesting ⟨nodes, levels⟩ es

theorem context_eq (levels : List Level) : descent.context levels = Level.innermost levels := by
  cases levels <;> rfl

theorem readOn_eq_resume (nodes : List Node) (levels : List Level) (es : List Entry) :
    readOn nodes levels es =
      descent.resume readOn levels (visit (descent.context levels) nodes es) := by
  rw [context_eq]
  cases es with
  | nil =>
    cases levels with
    | nil => exact run.eq_1 ..
    | cons l levels => exact run_close nodes l levels (by simp)
  | cons e rest =>
    rw [visit]
    split_ifs with shallow deep
    · cases levels with
      | nil => exact absurd shallow (Nat.not_lt_zero _)
      | cons l levels =>
        refine run_close nodes l levels ?_
        rintro _ ⟨⟩
        exact shallow
    · rw [readOn, run_cons, popTo_of_le nodes (Nat.le_of_lt deep), step, if_pos deep]
      rfl
    · rw [readOn, run_cons, popTo_of_le nodes (Nat.not_lt.1 shallow), step, if_neg deep]
      cases e.kind <;> cases deeper? e.indent rest
      all_goals simp only [Stack.push, Descent.resume, continued_eq_joined]
      all_goals first | rfl | (split_ifs <;> rfl)

theorem nodesOf_eq_of_ends {es : List Entry} {deep : Nat}
    {r : Except ParseError (List Node × List Entry)} (ends : descent.Ends 0 deep 0 [] es r) :
    nodesOf Sheet.maxNesting 0 es = r.map Prod.fst := by
  rw [nodesOf_eq_run]
  refine (ends.readOn_eq readOn_eq_resume [] rfl rfl).trans ?_
  cases r <;> rfl

end SheetLint.Indented
