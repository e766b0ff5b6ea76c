import SheetLint.Proofs.Loop
import SheetLint.Proofs.Brace.Reading
import SheetLint.Proofs.Brace.Returns

namespace SheetLint.Brace

def bump : Reading → Reading
  | (buffer, []) => (buffer, [])
  | (buffer, c :: rest) => (c :: buffer, rest)

/-! ## Strings, comments and interpolations -/

def stringTurn (quote : Char) (r : Reading) : Turn Reading (Option Reading) :=
  match r.2.head? with
  | none => .done none
  | some c =>
    if c.char = '\n' then .done none
    else if c.char = '\\' then .next (bump (bump r))
    else if c.char = quote then .done (some (bump r))
    else .next (bump r)

def closesComment (cells : List Cell) : Bool :=
  startsWith '*' cells && startsWith '/' (cells.drop 1)

def closingTurn (close : Reading → Reading) (r : Reading) : Turn Reading (Option Reading) :=
  if r.2.isEmpty then .done none
  else if closesComment r.2 then .done (some (close r))
  else .next (bump r)

def commentTurn : Reading → Turn Reading (Option Reading) :=
  closingTurn fun r => bump (bump r)

def bodyTurn : Reading → Turn Reading (Option Reading) :=
  closingTurn fun r => (r.1, r.2.drop 2)

def lineTurn (r : Reading) : Turn Reading Reading :=
  match r.2.head? with
  | none => .done r
  | some c => if c.char = '\n' then .done r else .next (bump r)

def openAfter (depth : Nat) (c : Char) : Nat :=
  if c = '{' then depth + 1 else if c = '}' then depth - 1 else depth

def interpolationTurn (s : Nat × Reading) : Turn (Nat × Reading) (Option Reading) :=
  if s.1 = 0 then .done (some s.2)
  else
    match s.2.2.head? with
    | none => .done none
    | some c => .next (openAfter s.1 c.char, bump s.2)

theorem bump_suffix (r : Reading) : (bump r).2 <:+ r.2 := by
  obtain ⟨buffer, _ | ⟨c, rest⟩⟩ := r
  · exact List.suffix_rfl
  · exact List.suffix_cons c rest

theorem computes_stringTurn (quote : Char) :
    Turn.Computes Prod.snd (stringTurn quote) fun r => readString quote r.1 r.2 := by
  refine Turn.Consumes.computes ?_ ?_
  · rintro ⟨buffer, _ | ⟨c, rest⟩⟩ t here
    · cases here
    · simp only [stringTurn, List.head?_cons] at here
      split_ifs at here
      · cases here
        exact exists_taken (bump_suffix _)
      · cases here
        exact exists_taken List.suffix_rfl
  · rintro ⟨buffer, _ | ⟨c, rest⟩⟩
    · rfl
    · simp only [stringTurn, List.head?_cons]
      split_ifs with newline backslash closed
      · cases rest <;> simp only [Turn.result, readString, if_pos newline]
      · cases rest with
        | nil => simp only [Turn.result, bump, readString, if_neg newline, if_pos backslash]
        | cons d rest => exact (readString_escape backslash d buffer rest).symm
      · rw [readString_visible newline backslash, if_pos closed]
        rfl
      · rw [readString_visible newline backslash, if_neg closed]
        rfl

theorem computes_closingTurn {close finish : Reading → Reading}
    (closed : ∀ buffer c d rest, close (buffer, c :: d :: rest) = finish (d :: c :: buffer, rest)) :
    Turn.Computes Prod.snd (closingTurn close) fun r => (readComment r.1 r.2).map finish := by
  refine Turn.Consumes.computes ?_ ?_
  · rintro ⟨buffer, _ | ⟨c, rest⟩⟩ t here
    · cases here
    · simp only [closingTurn, List.isEmpty_cons, Bool.false_eq_true, if_false] at here
      split_ifs at here
      cases here
      exact exists_taken List.suffix_rfl
  · rintro ⟨buffer, _ | ⟨c, rest⟩⟩
    · rfl
    · simp only [closingTurn, List.isEmpty_cons, Bool.false_eq_true, if_false]
      split_ifs with closes
      · obtain ⟨star, slash⟩ : c.char = '*' ∧ startsWith '/' rest = true := by
          simpa [closesComment, startsWith] using closes
        obtain ⟨d, rest, rfl, char⟩ := Scan.head?_eq_of_startsWith slash
        rw [readComment, if_pos ⟨star, char⟩, closed]
        rfl
      · rw [readComment_step (by simpa [closesComment, startsWith] using closes)]
        rfl

theorem computes_commentTurn :
    Turn.Computes Prod.snd commentTurn fun r => readComment r.1 r.2 := by
  have computes : Turn.Computes Prod.snd commentTurn fun r => (readComment r.1 r.2).map id :=
    computes_closingTurn fun _ _ _ _ => rfl
  simpa only [Option.map_id_fun, id_eq] using computes

theorem computes_bodyTurn :
    Turn.Computes Prod.snd bodyTurn fun r =>
      (readComment r.1 r.2).map fun q => (q.1.drop 2, q.2) :=
  computes_closingTurn fun _ _ _ _ => rfl

theorem computes_lineTurn : Turn.Computes Prod.snd lineTurn fun r =>
    ((r.2.takeWhile (·.char != '\n')).reverse ++ r.1, afterLine r.2) := by
  refine Turn.Consumes.computes ?_ ?_
  · rintro ⟨buffer, _ | ⟨c, rest⟩⟩ t here
    · cases here
    · simp only [lineTurn, List.head?_cons] at here
      split_ifs at here
      cases here
      exact exists_taken List.suffix_rfl
  · rintro ⟨buffer, _ | ⟨c, rest⟩⟩
    · rfl
    · simp only [lineTurn, List.head?_cons]
      split_ifs with newline
      · simp [Turn.result, afterLine, newline]
      · simp [Turn.result, afterLine, newline, bump]

theorem computes_interpolationTurn :
    Turn.Computes (fun s : Nat × Reading => s.2.2) interpolationTurn fun s =>
      match s.1 with
      | 0 => some s.2
      | depth + 1 => readInterpolation depth s.2.1 s.2.2 := by
  refine Turn.Consumes.computes ?_ ?_
  · rintro ⟨_ | depth, buffer, _ | ⟨c, rest⟩⟩ t here
    · cases here
    · cases here
    · cases here
    · cases here
      exact exists_taken List.suffix_rfl
  · rintro ⟨_ | depth, buffer, _ | ⟨c, rest⟩⟩
    · rfl
    · rfl
    · rfl
    · rw [interpolationTurn, if_neg (Nat.succ_ne_zero depth)]
      simp only [List.head?_cons, openAfter, Turn.result, bump]
      by_cases opening : c.char = '{'
      · simp only [if_pos opening]
        cases depth <;> rw [readInterpolation, if_pos opening]
      · simp only [if_neg opening]
        by_cases closing : c.char = '}'
        · cases depth <;> simp [readInterpolation, closing]
        · simp only [if_neg closing]
          rw [readInterpolation_step opening closing]

/-! ## Statements -/

def proceed (parens : Nat) (failure : ParseError) :
    Option Reading → Turn (Nat × Reading) (Except ParseError Reading)
  | none => .done (.error failure)
  | some r => .next (parens, r)

def statementTurn (flavor : Flavor) (s : Nat × Reading) :
    Turn (Nat × Reading) (Except ParseError Reading) :=
  match s.2.2 with
  | [] => .done (.ok s.2)
  | c :: rest =>
    if c.char = '"' ∨ c.char = '\'' then
      let r := bump s.2
      proceed s.1 ⟨.unclosedString, c.pos⟩ (readString c.char r.1 r.2)
    else if c.char = '/' ∧ startsWith '*' rest then
      let r := bump (bump s.2)
      proceed s.1 ⟨.unclosedComment, c.pos⟩ (readComment r.1 r.2)
    else if c.char = '/' ∧ s.1 = 0 ∧ flavor.lineComments ∧ startsWith '/' rest then
      .next (s.1, s.2.1, afterLine (rest.drop 1))
    else if flavor.interpolation = some c.char ∧ startsWith '{' rest then
      let r := bump (bump s.2)
      proceed s.1 ⟨.unclosedInterpolation, c.pos⟩ (readInterpolation 0 r.1 r.2)
    else if c.char = '(' then .next (s.1 + 1, bump s.2)
    else if c.char = ')' then .next (s.1 - 1, bump s.2)
    else if s.1 = 0 ∧ (c.char = ';' ∨ c.char = '{' ∨ c.char = '}') then .done (.ok s.2)
    else .next (s.1, bump s.2)

theorem proceed_suffix {parens : Nat} {failure : ParseError} {read : Option Reading}
    {t : Nat × Reading} {cells : List Cell} (suffix : ∀ r, read = some r → r.2 <:+ cells)
    (here : proceed parens failure read = .next t) : t.2.2 <:+ cells := by
  cases read with
  | none => cases here
  | some r =>
    cases here
    exact suffix r rfl

theorem result_proceed (parens : Nat) (failure : ParseError) (read : Option Reading)
    (f : Nat × Reading → Except ParseError Reading) :
    (proceed parens failure read).result f = read.elim (.error failure) fun r => f (parens, r) := by
  cases read <;> rfl

theorem bump_take (c : Cell) (buffer rest : List Cell) :
    bump (bump (buffer, c :: rest)) = (rest.take 1 ++ c :: buffer, rest.drop 1) := by
  cases rest <;> rfl

theorem afterLine_drop {rest : List Cell} (slash : startsWith '/' rest = true) :
    afterLine (rest.drop 1) = afterLine rest := by
  obtain ⟨d, rest, rfl, char⟩ := Scan.head?_eq_of_startsWith slash
  simp [afterLine, char]

theorem computes_statementTurn (flavor : Flavor) :
    Turn.Computes (fun s : Nat × Reading => s.2.2) (statementTurn flavor) fun s =>
      readStatement flavor s.1 s.2.1 s.2.2 := by
  refine Turn.Consumes.computes ?_ ?_
  · rintro ⟨parens, buffer, _ | ⟨c, rest⟩⟩ t here
    · cases here
    · simp only [statementTurn, bump_take] at here
      have past : rest.drop 1 <:+ rest := List.drop_suffix 1 rest
      apply exists_taken
      split_ifs at here
      · exact proceed_suffix (fun r read => (readString_grows read).suffix) here
      · exact proceed_suffix (fun r read => (readComment_grows read).suffix.trans past) here
      · cases here
        exact (List.dropWhile_suffix _).trans past
      · exact proceed_suffix (fun r read => (readInterpolation_grows read).suffix.trans past) here
      all_goals
        cases here
        exact List.suffix_rfl
  · rintro ⟨parens, buffer, _ | ⟨c, rest⟩⟩
    · exact readStatement_nil.symm
    · rw [readStatement_cons]
      simp only [statementTurn, bump_take]
      split_ifs with quote comment line
      · exact result_proceed _ _ _ _
      · exact result_proceed _ _ _ _
      · simp only [Turn.result, afterLine_drop line.2.2.2]
      · exact result_proceed _ _ _ _
      all_goals rfl

end SheetLint.Brace
