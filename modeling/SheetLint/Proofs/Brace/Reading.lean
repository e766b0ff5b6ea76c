import Mathlib.Data.List.Forall2
import Mathlib.Tactic.SplitIfs
import SheetLint.Proofs.Brace.Pieces
import SheetLint.Proofs.Brace.Prefix

/-!
The readers of `Brace/Piece` seen from the flat scan: where a reader hands back a buffer and a rest,
the scan arrives at the state with that buffer as its text before that rest (`Passes`), and where a
reader fails, the scan has come to a construct that it does not leave (`Stuck`).
-/

namespace SheetLint.Brace

theorem Reading.Grows.ne_nil {buffer cells : List Cell} {r : Reading} (h : r.Grows buffer cells)
    (begun : buffer ≠ []) : r.1 ≠ [] := by
  obtain ⟨taken, _, _, hr⟩ := h
  simp [hr, begun]

theorem Reading.Grows.getLast? {buffer cells : List Cell} {r : Reading} (h : r.Grows buffer cells)
    (begun : buffer ≠ []) : r.1.getLast? = buffer.getLast? := by
  obtain ⟨taken, _, _, hr⟩ := h
  rw [hr, List.getLast?_append, List.getLast?_eq_some_getLast begun, Option.some_or]

/-! ## What remains -/

theorem Reading.Grows.suffix {buffer cells : List Cell} {r : Reading} (h : r.Grows buffer cells) :
    r.2 <:+ cells := by
  obtain ⟨taken, -, rfl, -⟩ := h
  exact List.suffix_append taken r.2

theorem readStatement_suffix {flavor : Flavor} {parens : Nat} {buffer cells : List Cell}
    {r : Reading} (h : readStatement flavor parens buffer cells = .ok r) : r.2 <:+ cells := by
  fun_induction readStatement flavor parens buffer cells with
  | case1 => cases h; exact List.suffix_rfl
  | case2 | case4 | case7 => cases h
  | case3 parens buffer c rest quote r' read ih =>
    exact (ih h).trans ((readString_grows read).suffix.trans (List.suffix_cons c rest))
  | case5 parens buffer c rest quote comment r' read ih =>
    have later := (readComment_grows read).suffix.trans (List.drop_suffix 1 rest)
    exact (ih h).trans (later.trans (List.suffix_cons c rest))
  | case6 parens buffer c rest quote comment line ih =>
    exact (ih h).trans ((List.dropWhile_suffix _).trans (List.suffix_cons c rest))
  | case8 parens buffer c rest quote comment line braced r' read ih =>
    have later := (readInterpolation_grows read).suffix.trans (List.drop_suffix 1 rest)
    exact (ih h).trans (later.trans (List.suffix_cons c rest))
  | case9 parens buffer c rest quote comment line braced opened ih =>
    exact (ih h).trans (List.suffix_cons c rest)
  | case10 parens buffer c rest quote comment line braced opened closed ih =>
    exact (ih h).trans (List.suffix_cons c rest)
  | case11 => cases h; exact List.suffix_rfl
  | case12 parens buffer c rest quote comment line braced opened closed ended ih =>
    exact (ih h).trans (List.suffix_cons c rest)

theorem readComment_closed {buffer cells : List Cell} {r : Reading}
    (h : readComment buffer cells = some r) :
    ∃ star slash body, r.1 = slash :: star :: body ∧ star.char = '*' ∧ slash.char = '/' := by
  fun_induction readComment buffer cells with
  | case1 buffer c d rest closed =>
    cases h
    exact ⟨c, d, buffer, rfl, closed⟩
  | case2 buffer c d rest closed ih => exact ih h
  | case3 => cases h

namespace Piece

theorem suffix_ofStatement (buffer rest : List Cell) : (ofStatement buffer rest).2 <:+ rest := by
  unfold ofStatement
  split
  · exact List.suffix_rfl
  next d rest =>
    split_ifs
    · exact List.suffix_cons d rest
    · exact List.suffix_cons d rest
    · exact List.suffix_rfl

theorem suffix_ofCell {flavor : Flavor} {c : Cell} {rest : List Cell} {p : Piece × List Cell}
    (h : ofCell flavor c rest = .ok p) : p.2 <:+ c :: rest := by
  unfold ofCell at h
  split_ifs at h with closing opening block line
  · cases h
    exact List.suffix_cons c rest
  · cases h
    exact List.suffix_cons c rest
  · split at h
    · cases h
    next read =>
      cases h
      have later := (readComment_grows read).suffix.trans (List.drop_suffix 1 rest)
      exact later.trans (List.suffix_cons c rest)
  · cases h
    exact (List.dropWhile_suffix _).trans (List.suffix_cons c rest)
  · obtain ⟨r, read, rfl⟩ := map_eq_ok_iff.1 h
    exact (suffix_ofStatement r.1 r.2).trans (readStatement_suffix read)

theorem next_eq_none_iff {flavor : Flavor} {cells : List Cell} :
    next flavor cells = .ok none ↔ cells.dropWhile isGap = [] := by
  unfold next
  split
  next gaps => exact iff_of_true rfl gaps
  next c rest cut => simp [cut, map_eq_ok_iff]

theorem next_eq_some_iff {flavor : Flavor} {cells : List Cell} {p : Piece × List Cell} :
    next flavor cells = .ok (some p) ↔
      ∃ c rest, cells.dropWhile isGap = c :: rest ∧ ofCell flavor c rest = .ok p := by
  unfold next
  split
  next gaps => simp [gaps]
  next c rest cut => simp [cut, map_eq_ok_iff]

theorem suffix_next {flavor : Flavor} {cells rest : List Cell} {piece : Piece}
    (h : next flavor cells = .ok (some (piece, rest))) : rest <:+ cells := by
  obtain ⟨c, more, cut, made⟩ := next_eq_some_iff.1 h
  have later := suffix_ofCell made
  rw [← cut] at later
  exact later.trans (List.dropWhile_suffix _)

end Piece

namespace Scan

variable {flavor : Flavor} {parens : Nat}

theorem head?_eq_of_startsWith {c : Char} {cells : List Cell} (h : startsWith c cells = true) :
    ∃ d rest, cells = d :: rest ∧ d.char = c := by
  cases cells with
  | nil => simp [startsWith] at h
  | cons d rest => exact ⟨d, rest, rfl, by simpa [startsWith] using h⟩

theorem startsWith_iff (c : Char) (cells : List Cell) :
    startsWith c cells = true ↔ cells.head?.map Cell.char = some c := by
  cases cells <;> simp [startsWith]

theorem passes_string {quote : Char} {buffer cells : List Cell} {r : Reading}
    (read : readString quote buffer cells = some r) :
    Passes flavor ⟨.string quote, parens, buffer.reverse⟩ cells [] ⟨.plain, parens, r.1.reverse⟩ r.2 := by
  fun_induction readString quote buffer cells with
  | case1 | case2 | case3 => cases read
  | case4 buffer c newline escape d rest ih =>
    refine .cons (t := ⟨.escape quote, parens, (c :: buffer).reverse⟩) ?_ (.cons ?_ (ih read))
    · simp [State.step, escape, State.take]
    · simp [State.step, State.take]
  | case5 buffer c rest newline escape quoted =>
    cases read
    refine .cons ?_ (.refl _ _)
    simp only [State.step, if_neg newline, if_neg escape, if_pos quoted, State.take,
      List.reverse_cons]
  | case6 buffer c rest newline escape quoted ih =>
    refine .cons ?_ (ih read)
    simp only [State.step, if_neg newline, if_neg escape, if_neg quoted, State.take,
      List.reverse_cons]

theorem passes_interpolation {depth : Nat} {buffer cells : List Cell} {r : Reading}
    (read : readInterpolation depth buffer cells = some r) :
    Passes flavor ⟨.interpolation (depth + 1), parens, buffer.reverse⟩ cells []
      ⟨.plain, parens, r.1.reverse⟩ r.2 := by
  fun_induction readInterpolation depth buffer cells with
  | case1 => cases read
  | case2 depth buffer c rest opened ih =>
    refine .cons ?_ (ih read)
    simp [State.step, opened, State.take]
  | case3 buffer c rest opened closed =>
    cases read
    refine .cons ?_ (.refl _ _)
    simp [State.step, closed, State.take]
  | case4 buffer c rest opened closed depth ih =>
    refine .cons ?_ (ih read)
    simp [State.step, closed, State.take]
  | case5 depth buffer c rest opened closed ih =>
    refine .cons ?_ (ih read)
    simp [State.step, opened, closed, State.take]

theorem passes_comment {buffer cells : List Cell} {r : Reading}
    (read : readComment buffer cells = some r) (begun : buffer ≠ []) :
    Passes flavor ⟨.comment, parens, buffer.reverse⟩ cells [] ⟨.plain, parens, r.1.reverse⟩ r.2 := by
  fun_induction readComment buffer cells with
  | case1 buffer c d rest closed =>
    cases read
    refine .cons (t := ⟨.closing, parens, (c :: buffer).reverse⟩) ?_ (.cons ?_ (.refl _ _))
    · simp [State.step, State.keep, begun, closed]
    · simp [State.step, State.keep]
  | case2 buffer c d rest closed ih =>
    refine .cons ?_ (ih read (by simp))
    simp [State.step, State.keep, begun, closed]
  | case3 => cases read

theorem passes_comment_between {buffer cells : List Cell} {r : Reading}
    (read : readComment buffer cells = some r) :
    Passes flavor ⟨.comment, parens, []⟩ cells [] ⟨.plain, parens, []⟩ r.2 := by
  fun_induction readComment buffer cells with
  | case1 buffer c d rest closed =>
    cases read
    refine .cons (t := ⟨.closing, parens, []⟩) ?_ (.cons ?_ (.refl _ _))
    · simp [State.step, State.keep, closed]
    · simp [State.step, State.keep]
  | case2 buffer c d rest closed ih =>
    refine .cons ?_ (ih read)
    simp [State.step, State.keep, closed]
  | case3 => cases read

theorem passes_line (flavor : Flavor) (parens : Nat) (text : List Cell) (c : Cell) (rest : List Cell) :
    ∃ mode, Passes flavor ⟨.line, parens, text⟩ (c :: rest) [] ⟨mode, parens, text⟩ (afterLine rest) ∧
      (mode = .plain ∨ mode = .line ∧ afterLine rest = []) := by
  induction rest generalizing c with
  | nil => exact ⟨.line, .cons rfl (.refl _ _), .inr ⟨rfl, rfl⟩⟩
  | cons d rest ih =>
    by_cases newline : d.char = '\n'
    · have ends : afterLine (d :: rest) = d :: rest := by simp [afterLine, newline]
      rw [ends]
      refine ⟨.plain, .cons ?_ (.refl _ _), .inl rfl⟩
      simp [State.step, newline]
    · have goes : afterLine (d :: rest) = afterLine rest := by simp [afterLine, newline]
      obtain ⟨mode, passes, ends⟩ := ih d
      rw [goes]
      refine ⟨mode, .cons ?_ passes, ends⟩
      simp [State.step, newline]

theorem scan_line (text : List Cell) (c : Cell) (rest : List Cell) :
    scan flavor ⟨.line, parens, text⟩ (c :: rest) =
      scan flavor ⟨.plain, parens, text⟩ (afterLine rest) := by
  obtain ⟨mode, passes, rfl | ⟨rfl, done⟩⟩ :=
    passes_line flavor parens text c rest
  · simp [passes.scan_eq]
  · rw [passes.scan_eq, done]
    simp [scan, State.finish, State.ended]

/-! ## Statements -/

def Begins (flavor : Flavor) (cells : List Cell) : Prop :=
  ∃ c rest, cells = c :: rest ∧ c.isBlank = false ∧
    ¬(c.char = '/' ∧ startsWith '*' rest = true) ∧
    ¬(c.char = '/' ∧ flavor.lineComments = true ∧ startsWith '/' rest = true)

theorem Begins.not_comment {c : Cell} {rest : List Cell} (h : Begins flavor (c :: rest)) :
    ¬(c.char = '/' ∧ startsWith '*' rest = true) ∧
      ¬(c.char = '/' ∧ flavor.lineComments = true ∧ startsWith '/' rest = true) := by
  obtain ⟨_, _, same, _, block, line⟩ := h
  cases same
  exact ⟨block, line⟩

theorem Begins.not_blank {c : Cell} {rest : List Cell} (h : Begins flavor (c :: rest)) :
    c.isBlank = false := by
  obtain ⟨_, _, same, blank, _⟩ := h
  cases same
  exact blank

section Constructs

variable {buffer rest : List Cell} {c : Cell} {r : Reading}

theorem passes_quote (quote : c.char = '"' ∨ c.char = '\'')
    (read : readString c.char (c :: buffer) rest = some r) :
    Passes flavor ⟨.plain, parens, buffer.reverse⟩ (c :: rest) [] ⟨.plain, parens, r.1.reverse⟩ r.2 := by
  refine .cons ?_ (passes_string read)
  simp [State.step, State.stepPlain, quote, State.take]

theorem passes_slash_star (begun : buffer ≠ []) (comment : c.char = '/' ∧ startsWith '*' rest = true)
    (read : readComment (rest.take 1 ++ c :: buffer) (rest.drop 1) = some r) :
    Passes flavor ⟨.plain, parens, buffer.reverse⟩ (c :: rest) [] ⟨.plain, parens, r.1.reverse⟩ r.2 := by
  obtain ⟨d, rest, rfl, star⟩ := head?_eq_of_startsWith comment.2
  refine .cons (t := ⟨.opening, parens, (c :: buffer).reverse⟩) ?_
    (.cons (t := ⟨.comment, parens, (d :: c :: buffer).reverse⟩) ?_ (passes_comment read (by simp)))
  · simp [State.step, State.stepPlain, comment, star, State.keep, State.commented, begun]
  · simp [State.step, State.keep]

theorem passes_slash_slash (begun : buffer ≠ [])
    (line : c.char = '/' ∧ parens = 0 ∧ flavor.lineComments = true ∧ startsWith '/' rest = true) :
    ∃ mode, Passes flavor ⟨.plain, parens, buffer.reverse⟩ (c :: rest) []
        ⟨mode, parens, buffer.reverse⟩ (afterLine rest) ∧
      (mode = .plain ∨ mode = .line ∧ afterLine rest = []) := by
  obtain ⟨d, rest, rfl, slash⟩ := head?_eq_of_startsWith line.2.2.2
  obtain ⟨mode, passes, ends⟩ := passes_line flavor parens buffer.reverse d rest
  have goes : afterLine (d :: rest) = afterLine rest := by simp [afterLine, slash]
  rw [goes]
  refine ⟨mode, .cons ?_ passes, ends⟩
  simp [State.step, State.stepPlain, line, slash, State.commented, begun]

theorem passes_braced (quote : ¬(c.char = '"' ∨ c.char = '\''))
    (comment : ¬(c.char = '/' ∧ startsWith '*' rest = true))
    (line : ¬(c.char = '/' ∧ parens = 0 ∧ flavor.lineComments = true ∧ startsWith '/' rest = true))
    (braced : flavor.interpolation = some c.char ∧ startsWith '{' rest = true)
    (read : readInterpolation 0 (rest.take 1 ++ c :: buffer) (rest.drop 1) = some r) :
    Passes flavor ⟨.plain, parens, buffer.reverse⟩ (c :: rest) [] ⟨.plain, parens, r.1.reverse⟩ r.2 := by
  obtain ⟨d, rest, rfl, brace⟩ := head?_eq_of_startsWith braced.2
  refine .cons (t := ⟨.interpolation 0, parens, (c :: buffer).reverse⟩) ?_
    (.cons (t := ⟨.interpolation 1, parens, (d :: c :: buffer).reverse⟩) ?_ (passes_interpolation read))
  · simp only [State.step, State.stepPlain, ← startsWith_iff, if_neg quote, if_neg comment,
      if_neg line, if_pos braced, State.take, List.reverse_cons]
  · simp [State.step, State.take, brace]

end Constructs

/-! ## Constructs that cannot be read -/

theorem scan_string_of_none {quote : Char} {buffer cells : List Cell}
    (failed : readString quote buffer cells = none) (text : List Cell) :
    scan flavor ⟨.string quote, parens, text⟩ cells = none := by
  fun_induction readString quote buffer cells generalizing text with
  | case1 => rfl
  | case2 buffer c rest newline => simp [scan, State.step, newline]
  | case3 buffer c newline escape => simp [scan, State.step, escape, State.take, State.finish]
  | case4 buffer c newline escape d rest ih =>
    rw [scan_cons (t := ⟨.escape quote, parens, text ++ [c]⟩),
      scan_cons (t := ⟨.string quote, parens, text ++ [c] ++ [d]⟩), ih failed]
    · simp only [State.step, State.take]
    · simp [State.step, escape, State.take]
  | case5 => cases failed
  | case6 buffer c rest newline escape quoted ih =>
    rw [scan_cons (t := ⟨.string quote, parens, text ++ [c]⟩), ih failed]
    simp only [State.step, if_neg newline, if_neg escape, if_neg quoted, State.take]

theorem scan_interpolation_of_none {depth : Nat} {buffer cells : List Cell}
    (failed : readInterpolation depth buffer cells = none) (text : List Cell) :
    scan flavor ⟨.interpolation (depth + 1), parens, text⟩ cells = none := by
  fun_induction readInterpolation depth buffer cells generalizing text with
  | case1 => rfl
  | case2 depth buffer c rest opened ih =>
    rw [scan_cons (t := ⟨.interpolation (depth + 2), parens, text ++ [c]⟩), ih failed]
    simp only [State.step, if_pos opened, State.take]
  | case3 => cases failed
  | case4 buffer c rest opened closed depth ih =>
    rw [scan_cons (t := ⟨.interpolation (depth + 1), parens, text ++ [c]⟩), ih failed]
    simp [State.step, closed, State.take]
  | case5 depth buffer c rest opened closed ih =>
    rw [scan_cons (t := ⟨.interpolation (depth + 1), parens, text ++ [c]⟩), ih failed]
    simp only [State.step, if_neg opened, if_neg closed, State.take]

theorem scan_comment_of_none {buffer cells : List Cell} (failed : readComment buffer cells = none)
    (text : List Cell) : scan flavor ⟨.comment, parens, text⟩ cells = none := by
  fun_induction readComment buffer cells generalizing text with
  | case1 => cases failed
  | case2 buffer c d rest closed ih =>
    rw [scan_cons (t := State.keep ⟨.comment, parens, text⟩ c .comment), State.keep, ih failed]
    simp [State.step, State.keep, closed]
  | case3 cells buffer short =>
    rcases cells with _ | ⟨c, _ | ⟨d, rest⟩⟩
    · rfl
    · simp [scan, State.step, State.keep, State.finish]
    · exact (short c d rest rfl).elim

inductive Unread (flavor : Flavor) (c : Cell) (rest : List Cell) : ParseError.Cause → Prop
  | string {buffer : List Cell} (quote : c.char = '"' ∨ c.char = '\'')
    (failed : readString c.char buffer rest = none) : Unread flavor c rest .unclosedString
  | comment {buffer : List Cell} (begins : c.char = '/' ∧ startsWith '*' rest = true)
    (failed : readComment buffer (rest.drop 1) = none) : Unread flavor c rest .unclosedComment
  | interpolation {buffer : List Cell} (plain : ¬(c.char = '"' ∨ c.char = '\''))
    (begins : flavor.interpolation = some c.char ∧ startsWith '{' rest = true)
    (failed : readInterpolation 0 buffer (rest.drop 1) = none) :
    Unread flavor c rest .unclosedInterpolation

theorem Unread.scan_eq {c : Cell} {rest : List Cell} {cause : ParseError.Cause}
    (unread : Unread flavor c rest cause) (text : List Cell) :
    scan flavor ⟨.plain, parens, text⟩ (c :: rest) = none := by
  cases unread with
  | string quote failed =>
    rw [scan_cons (t := ⟨.string c.char, parens, text ++ [c]⟩)]
    · exact scan_string_of_none failed _
    · simp [State.step, State.stepPlain, quote, State.take]
  | @comment buffer begins failed =>
    obtain ⟨d, rest, rfl, star⟩ := head?_eq_of_startsWith begins.2
    have open' : readComment buffer rest = none := failed
    let kept := State.keep ⟨.plain, parens, text⟩ c .opening
    rw [scan_plain (p := State.commented ⟨.plain, parens, text⟩ c false) (t := kept),
      scan_cons (t := kept.keep d .comment), State.keep, scan_comment_of_none open']
    · rfl
    · rfl
    · simp [State.stepPlain, begins, star, kept]
  | @interpolation buffer plain begins failed =>
    obtain ⟨d, rest, rfl, brace⟩ := head?_eq_of_startsWith begins.2
    have open' : readInterpolation 0 buffer rest = none := failed
    rw [scan_cons (t := ⟨.interpolation 0, parens, text ++ [c]⟩),
      scan_cons (t := ⟨.interpolation 1, parens, text ++ [c] ++ [d]⟩), scan_interpolation_of_none open']
    · simp [State.step, State.take, brace]
    · simp [State.step, State.stepPlain, plain, begins.1, brace, State.take]

def Stuck (flavor : Flavor) (s : State) (cells : List Cell) (e : ParseError) : Prop :=
  ∃ t c rest, Passes flavor s cells [] t (c :: rest) ∧ t.mode = .plain ∧ c.pos = e.pos ∧
    Unread flavor c rest e.cause

theorem Stuck.after {s t : State} {cells left : List Cell} {e : ParseError}
    (first : Passes flavor s cells [] t left) (stuck : Stuck flavor t left e) :
    Stuck flavor s cells e := by
  obtain ⟨u, c, rest, later, found⟩ := stuck
  exact ⟨u, c, rest, first.trans later, found⟩

theorem Stuck.scan_eq {s : State} {cells : List Cell} {e : ParseError}
    (stuck : Stuck flavor s cells e) : scan flavor s cells = none := by
  obtain ⟨⟨mode, parens, text⟩, c, rest, passes, rfl, -, unread⟩ := stuck
  rw [passes.scan_eq, unread.scan_eq]
  rfl

/-! ## Whole statements -/

def State.Ends (s : State) (text : List Cell) (left : List Cell) : Prop :=
  s.text = text ∧ (s.mode = .plain ∧ s.parens = 0 ∨
    left = [] ∧ (s.mode = .plain ∨ s.mode = .line))

def Tracks (flavor : Flavor) (s : State) (cells : List Cell) : Except ParseError Reading → Prop
  | .error e => Stuck flavor s cells e
  | .ok r => ∃ t, Passes flavor s cells [] t r.2 ∧ t.Ends r.1.reverse r.2

theorem Tracks.after {s t : State} {cells left : List Cell} {result : Except ParseError Reading}
    (first : Passes flavor s cells [] t left) (tracks : Tracks flavor t left result) :
    Tracks flavor s cells result := by
  cases result with
  | error e => exact Stuck.after first tracks
  | ok r =>
    obtain ⟨u, later, ends⟩ := tracks
    exact ⟨u, first.trans later, ends⟩

theorem tracks_statement (buffer cells : List Cell) (begun : buffer = [] → Begins flavor cells) :
    Tracks flavor ⟨.plain, parens, buffer.reverse⟩ cells (readStatement flavor parens buffer cells) := by
  fun_induction readStatement flavor parens buffer cells with
  | case1 parens buffer => exact ⟨_, .refl _ _, rfl, .inr ⟨rfl, .inl rfl⟩⟩
  | case2 parens buffer c rest quote failed =>
    exact ⟨_, c, rest, .refl _ _, rfl, rfl, .string quote failed⟩
  | case3 parens buffer c rest quote r read ih =>
    have going : r.1 ≠ [] := (readString_grows read).ne_nil (by simp)
    exact .after (passes_quote quote read) (ih fun h => absurd h going)
  | case4 parens buffer c rest quote comment failed =>
    exact ⟨_, c, rest, .refl _ _, rfl, rfl, .comment comment failed⟩
  | case5 parens buffer c rest quote comment r read ih =>
    -- A comment in front of a statement would be a piece of its own.
    have open' : buffer ≠ [] := fun h => (begun h).not_comment.1 comment
    have going : r.1 ≠ [] := (readComment_grows read).ne_nil (by simp)
    exact .after (passes_slash_star open' comment read) (ih fun h => absurd h going)
  | case6 parens buffer c rest quote comment line ih =>
    have open' : buffer ≠ [] := fun h =>
      (begun h).not_comment.2 ⟨line.1, line.2.2.1, line.2.2.2⟩
    obtain ⟨mode, passes, rfl | ⟨rfl, done⟩⟩ := passes_slash_slash open' line
    · exact .after passes (ih fun h => absurd h open')
    · rw [done, readStatement]
      rw [done] at passes
      exact ⟨_, passes, rfl, .inr ⟨rfl, .inr rfl⟩⟩
  | case7 parens buffer c rest quote comment line braced failed =>
    exact ⟨_, c, rest, .refl _ _, rfl, rfl, .interpolation quote braced failed⟩
  | case8 parens buffer c rest quote comment line braced r read ih =>
    have going : r.1 ≠ [] := (readInterpolation_grows read).ne_nil (by simp)
    exact .after (passes_braced quote comment line braced read) (ih fun h => absurd h going)
  | case9 parens buffer c rest quote comment line braced opened ih =>
    refine .after (.cons ?_ (.refl _ _)) (ih (by simp))
    simp only [State.step, State.stepPlain, ← startsWith_iff, if_neg quote, if_neg comment,
      if_neg line, if_neg braced, if_pos opened, State.take, List.reverse_cons]
  | case10 parens buffer c rest quote comment line braced opened closed ih =>
    refine .after (.cons ?_ (.refl _ _)) (ih (by simp))
    simp only [State.step, State.stepPlain, ← startsWith_iff, if_neg quote, if_neg comment,
      if_neg line, if_neg braced, if_neg opened, if_pos closed, State.take, List.reverse_cons]
  | case11 parens buffer c rest quote comment line braced opened closed ended =>
    exact ⟨_, .refl _ _, rfl, .inl ⟨rfl, ended.1⟩⟩
  | case12 parens buffer c rest quote comment line braced opened closed ended ih =>
    have no (e : Char) (he : e = ';' ∨ e = '{' ∨ e = '}') : ¬(parens = 0 ∧ c.char = e) := by
      rintro ⟨zero, rfl⟩
      exact ended ⟨zero, he⟩
    have kept (blank : c.isBlank = true) : buffer ≠ [] := by
      intro h
      simp [(begun h).not_blank] at blank
    refine .after (.cons ?_ (.refl _ _)) (ih (by simp))
    simp only [State.step, State.stepPlain, ← startsWith_iff, if_neg quote, if_neg comment,
      if_neg line, if_neg braced, if_neg opened, if_neg closed, if_neg (no _ (.inl rfl)),
      if_neg (no _ (.inr (.inl rfl))), if_neg (no _ (.inr (.inr rfl))), State.take, State.keep,
      List.reverse_cons]
    by_cases blank : c.isBlank = true
    · simp [blank, kept blank]
    · simp [blank]

theorem readStatement_ending {buffer cells : List Cell} {r : Reading}
    (h : readStatement flavor parens buffer cells = .ok r) :
    r.2 = [] ∨ ∃ d rest, r.2 = d :: rest ∧ (d.char = ';' ∨ d.char = '{' ∨ d.char = '}') := by
  fun_induction readStatement flavor parens buffer cells with
  | case1 parens buffer => cases h; exact .inl rfl
  | case2 | case4 | case7 => cases h
  | case3 _ _ _ _ _ _ _ ih | case5 _ _ _ _ _ _ _ _ ih | case6 _ _ _ _ _ _ _ ih
  | case8 _ _ _ _ _ _ _ _ _ _ ih | case9 _ _ _ _ _ _ _ _ _ ih | case10 _ _ _ _ _ _ _ _ _ _ ih
  | case12 _ _ _ _ _ _ _ _ _ _ _ ih => exact ih h
  | case11 parens buffer c rest quote comment line braced opened closed ended =>
    cases h
    exact .inr ⟨c, rest, rfl, ended.2⟩

theorem getLast?_append_cons {before buffer : List Cell} {c : Cell} :
    (before ++ c :: buffer).getLast? = (c :: buffer).getLast? := by
  rw [List.getLast?_append, List.getLast?_cons, Option.some_or]

theorem getLast?_cons_or {c : Cell} {buffer : List Cell} {rest : Option Cell} :
    (c :: buffer).getLast?.or rest = buffer.getLast?.or (some c) := by
  cases h : buffer.getLast? <;> simp [List.getLast?_cons, h]

theorem readStatement_first {buffer cells : List Cell} {r : Reading}
    (h : readStatement flavor parens buffer cells = .ok r)
    (begun : buffer = [] → Begins flavor cells ∧ ∀ c ∈ cells.head?, c.char ∉ [';', '{', '}']) :
    r.1.getLast? = buffer.getLast?.or cells.head? := by
  fun_induction readStatement flavor parens buffer cells with
  | case1 parens buffer => cases h; simp
  | case2 | case4 | case7 => cases h
  | case3 parens buffer c rest quote r' read ih =>
    have grown := readString_grows read
    rw [ih h (fun no => absurd no (grown.ne_nil (by simp))), grown.getLast? (by simp),
      getLast?_cons_or, List.head?_cons]
  | case5 parens buffer c rest quote comment r' read ih =>
    have grown := readComment_grows read
    rw [ih h (fun no => absurd no (grown.ne_nil (by simp))), grown.getLast? (by simp),
      getLast?_append_cons, getLast?_cons_or, List.head?_cons]
  | case6 parens buffer c rest quote comment line ih =>
    have open' : buffer ≠ [] := fun no =>
      (begun no).1.not_comment.2 ⟨line.1, line.2.2.1, line.2.2.2⟩
    rw [ih h (fun no => absurd no open'), List.getLast?_eq_some_getLast open']
    rfl
  | case8 parens buffer c rest quote comment line braced r' read ih =>
    have grown := readInterpolation_grows read
    rw [ih h (fun no => absurd no (grown.ne_nil (by simp))), grown.getLast? (by simp),
      getLast?_append_cons, getLast?_cons_or, List.head?_cons]
  | case9 parens buffer c rest quote comment line braced opened ih =>
    rw [ih h (by simp), getLast?_cons_or, List.head?_cons]
  | case10 parens buffer c rest quote comment line braced opened closed ih =>
    rw [ih h (by simp), getLast?_cons_or, List.head?_cons]
  | case11 parens buffer c rest quote comment line braced opened closed ended =>
    cases h
    cases buffer with
    | nil =>
      have := (begun rfl).2 c rfl
      simp [ended.2] at this
    | cons d buffer => rw [List.getLast?_eq_some_getLast (by simp)]; rfl
  | case12 parens buffer c rest quote comment line braced opened closed ended ih =>
    rw [ih h (by simp), getLast?_cons_or, List.head?_cons]

/-! ## Pieces -/

/-- A flavor whose interpolations begin with a character that means nothing else. -/
def Ordinary (flavor : Flavor) : Prop :=
  ∀ c, flavor.interpolation = some c → c = '#' ∨ c = '@'

def marks : List Char := ['"', '\'', '/', '#', '@', '(', ')', ';', '{', '}']

theorem not_mem_marks_of_isBlank {c : Cell} (blank : c.isBlank = true) : c.char ∉ marks := by
  intro mem
  have kept : Text.isBlank c.char = false := by
    simp only [marks, List.mem_cons, List.not_mem_nil, or_false] at mem
    rcases mem with h | h | h | h | h | h | h | h | h | h <;> rw [h] <;> rfl
  simp [Cell.isBlank, kept] at blank

theorem Ordinary.ne_interpolation (h : Ordinary flavor) {c : Char} (hash : c ≠ '#') (at' : c ≠ '@') :
    flavor.interpolation ≠ some c := by
  intro same
  exact (h c same).elim hash at'

theorem stepPlain_blank (ordinary : Ordinary flavor) (s : State) {c : Cell} {next : Option Char}
    (blank : c.isBlank = true) : s.stepPlain flavor c next = ([], s.keep c .plain) := by
  have unmarked := not_mem_marks_of_isBlank blank
  simp only [marks, List.mem_cons, List.not_mem_nil, or_false, not_or] at unmarked
  obtain ⟨double, single, slash, hash, at', left, right, semicolon, opening, closing⟩ := unmarked
  simp [State.stepPlain, *, ordinary.ne_interpolation hash at']

theorem stepPlain_semicolon (ordinary : Ordinary flavor) (text : List Cell) {c : Cell}
    {next : Option Char} (semicolon : c.char = ';') :
    (⟨.plain, 0, text⟩ : State).stepPlain flavor c next =
      ((⟨.plain, 0, text⟩ : State).ended (some c), .start) := by
  simp [State.stepPlain, semicolon,
    ordinary.ne_interpolation (c := ';') (by decide) (by decide)]

theorem stepPlain_opening (ordinary : Ordinary flavor) (text : List Cell) {c : Cell}
    {next : Option Char} (opening : c.char = '{') :
    (⟨.plain, 0, text⟩ : State).stepPlain flavor c next = ([.opening text c], .start) := by
  simp [State.stepPlain, opening, ordinary.ne_interpolation (c := '{') (by decide) (by decide)]

theorem stepPlain_closing (ordinary : Ordinary flavor) (text : List Cell) {c : Cell}
    {next : Option Char} (closing : c.char = '}') :
    (⟨.plain, 0, text⟩ : State).stepPlain flavor c next =
      ((⟨.plain, 0, text⟩ : State).ended (some c) ++ [.closing c], .start) := by
  simp [State.stepPlain, closing, ordinary.ne_interpolation (c := '}') (by decide) (by decide)]

def Begun (text : List Cell) : Prop :=
  ∃ c rest, text = c :: rest ∧ c.isBlank = false

theorem Begun.ne_nil {text : List Cell} (h : Begun text) : text ≠ [] := by
  obtain ⟨c, rest, rfl, -⟩ := h
  exact List.cons_ne_nil c rest

def Item.Reads : Item → Piece → Prop
  | .comment slash inline, .comment c => c.start = slash.pos ∧ c.inline = inline
  | .statement text _, .statement collected =>
    Begun text ∧ collected = Text.trimWhile Cell.isBlank text
  | .opening text brace, .opening collected pos =>
    (text = [] ∨ Begun text) ∧ collected = Text.trimWhile Cell.isBlank text ∧ pos = brace.pos
  | .closing brace, .closing pos => pos = brace.pos
  | _, _ => False

section Reads

variable {slash brace : Cell} {text : List Cell} {p : Piece}

theorem Item.Reads.eq_comment {inline : Bool} (h : (Item.comment slash inline).Reads p) :
    ∃ c : Comment, p = .comment c ∧ c.start = slash.pos ∧ c.inline = inline := by
  cases p with
  | comment c => exact ⟨c, rfl, h⟩
  | _ => exact h.elim

theorem Item.Reads.eq_statement {ending : Option Cell} (h : (Item.statement text ending).Reads p) :
    Begun text ∧ p = .statement (Text.trimWhile Cell.isBlank text) := by
  cases p with
  | statement collected => exact ⟨h.1, congrArg Piece.statement h.2⟩
  | _ => exact h.elim

theorem Item.Reads.eq_opening (h : (Item.opening text brace).Reads p) :
    (text = [] ∨ Begun text) ∧ p = .opening (Text.trimWhile Cell.isBlank text) brace.pos := by
  cases p with
  | opening collected pos => exact ⟨h.1, congrArg₂ Piece.opening h.2.1 h.2.2⟩
  | _ => exact h.elim

theorem Item.Reads.eq_closing (h : (Item.closing brace).Reads p) : p = .closing brace.pos := by
  cases p with
  | closing pos => exact congrArg Piece.closing h
  | _ => exact h.elim

end Reads

/-- Whether a scan stands between two pieces, up to an item that it passes next without reading on: a
statement is passed only at the closing brace or the end of the text that ends it. -/
inductive Between : State → List Cell → List Item → Prop
  | start (cells : List Cell) : Between .start cells []
  | closing {text : List Cell} {brace : Cell} {rest : List Cell} (begun : text ≠ [])
    (closes : brace.char = '}') :
    Between ⟨.plain, 0, text⟩ (brace :: rest) [.statement text (some brace)]
  | ended {s : State} (outside : s.mode = .plain ∨ s.mode = .line) : Between s [] (s.ended none)

def Yields (flavor : Flavor) (s : State) (cells : List Cell) :
    Except ParseError (Piece × List Cell) → Prop
  | .error e => Stuck flavor s cells e
  | .ok (piece, rest) => ∃ item is t pending, item.Reads piece ∧ Passes flavor s cells is t rest ∧
      Between t rest pending ∧ is ++ pending = [item]

theorem Yields.after {s t : State} {cells left : List Cell}
    {result : Except ParseError (Piece × List Cell)} (first : Passes flavor s cells [] t left)
    (yields : Yields flavor t left result) : Yields flavor s cells result := by
  cases result with
  | error e => exact Stuck.after first yields
  | ok p =>
    obtain ⟨item, is, u, pending, reads, later, between, one⟩ := yields
    exact ⟨item, is, u, pending, reads, first.trans later, between, one⟩

theorem yields_ofStatement (ordinary : Ordinary flavor) {buffer rest : List Cell} {t : State}
    (begun : Begun buffer.reverse) (ends : t.Ends buffer.reverse rest)
    (ending : rest = [] ∨ ∃ d more, rest = d :: more ∧
      (d.char = ';' ∨ d.char = '{' ∨ d.char = '}')) :
    Yields flavor t rest (.ok (Piece.ofStatement buffer rest)) := by
  have nonempty : buffer.reverse ≠ [] := begun.ne_nil
  obtain ⟨mode, parens, text⟩ := t
  obtain ⟨rfl, plain⟩ := ends
  rcases ending with rfl | ⟨d, more, rfl, ending⟩
  · have outside : mode = .plain ∨ mode = .line := plain.elim (fun h => .inl h.1) (·.2)
    refine ⟨.statement buffer.reverse none, [], _, _, ⟨begun, rfl⟩, .refl _ _, .ended outside, ?_⟩
    simp [State.ended, nonempty]
  · obtain ⟨rfl, rfl⟩ : mode = .plain ∧ parens = 0 := plain.resolve_right fun h => by cases h.1
    rcases ending with semicolon | opening | closing
    · have passes := Passes.plain more (stepPlain_semicolon ordinary buffer.reverse semicolon)
      have left : Piece.ofStatement buffer (d :: more) = (.statement (Piece.collected buffer), more) := by
        simp [Piece.ofStatement, semicolon]
      rw [left]
      refine ⟨.statement buffer.reverse (some d), _, _, _, ⟨begun, rfl⟩, passes, .start more, ?_⟩
      simp [State.ended, nonempty]
    · have passes := Passes.plain more (stepPlain_opening ordinary buffer.reverse opening)
      have left : Piece.ofStatement buffer (d :: more) =
          (.opening (Piece.collected buffer) d.pos, more) := by
        simp [Piece.ofStatement, opening]
      rw [left]
      exact ⟨.opening buffer.reverse d, _, _, _, ⟨.inr begun, rfl, rfl⟩, passes, .start more, rfl⟩
    · have left : Piece.ofStatement buffer (d :: more) =
          (.statement (Piece.collected buffer), d :: more) := by
        simp [Piece.ofStatement, closing]
      rw [left]
      exact ⟨.statement buffer.reverse (some d), _, _, _, ⟨begun, rfl⟩, .refl _ _,
        .closing nonempty closing, rfl⟩

theorem yields_ofCell (ordinary : Ordinary flavor) (c : Cell) (rest : List Cell)
    (gap : Piece.isGap c = false) : Yields flavor .start (c :: rest) (Piece.ofCell flavor c rest) := by
  unfold Piece.ofCell
  split_ifs with closing opening block line
  · exact ⟨.closing c, _, _, _, rfl, .plain rest (stepPlain_closing ordinary _ closing), .start rest, rfl⟩
  · exact ⟨.opening [] c, _, _, _, ⟨.inl rfl, rfl, rfl⟩, .plain rest (stepPlain_opening ordinary _ opening),
      .start rest, rfl⟩
  · cases read : readComment [] (rest.drop 1) with
    | none => exact ⟨_, c, rest, .refl _ _, rfl, rfl, .comment block read⟩
    | some r =>
      obtain ⟨d, rest, rfl, star⟩ := head?_eq_of_startsWith block.2
      have first : State.start.step flavor c (some d.char) =
          some ([.comment c false], ⟨.opening, 0, []⟩) := by
        simp [State.step, State.stepPlain, block, star, State.commented, State.keep]
      have second : (⟨.opening, 0, []⟩ : State).step flavor d (rest.head?.map Cell.char) =
          some ([], ⟨.comment, 0, []⟩) := by
        simp [State.step, State.keep]
      exact ⟨.comment c false, _, _, _, ⟨rfl, rfl⟩, ((passes_comment_between read).cons second).step first,
        .start r.2, rfl⟩
  · obtain ⟨d, rest, rfl, slash⟩ := head?_eq_of_startsWith line.2.2
    obtain ⟨mode, passes, ends⟩ := passes_line flavor 0 [] d rest
    have goes : afterLine (d :: rest) = afterLine rest := by simp [afterLine, slash]
    have first : State.start.step flavor c (some d.char) = some ([.comment c true], ⟨.line, 0, []⟩) := by
      simp [State.step, State.stepPlain, line, slash, State.commented]
    rw [goes]
    rcases ends with rfl | ⟨rfl, done⟩
    · exact ⟨.comment c true, _, _, _, ⟨rfl, rfl⟩, passes.step first, .start _, rfl⟩
    · rw [done] at passes ⊢
      exact ⟨.comment c true, _, _, _, ⟨rfl, rfl⟩, passes.step first, .ended (.inr rfl), rfl⟩
  · have blank : c.isBlank = false := by
      simp only [Piece.isGap, Bool.or_eq_false_iff] at gap
      exact gap.1
    have begins : Begins flavor (c :: rest) := ⟨c, rest, rfl, blank, block, line⟩
    have tracks : Tracks flavor .start (c :: rest) _ :=
      tracks_statement [] (c :: rest) fun _ => begins
    cases read : readStatement flavor 0 [] (c :: rest) with
    | error e =>
      rw [read] at tracks
      exact tracks
    | ok r =>
      rw [read] at tracks
      obtain ⟨t, passes, ends⟩ := tracks
      have first : r.1.reverse.head? = some c := by
        rw [List.head?_reverse, readStatement_first read fun _ => ⟨begins, ?_⟩]
        · rfl
        · simp [Piece.isGap] at gap
          simp [gap, opening, closing]
      have begun : Begun r.1.reverse := by
        obtain ⟨more, text⟩ := List.head?_eq_some_iff.1 first
        exact ⟨c, more, text, blank⟩
      exact (yields_ofStatement ordinary begun ends (readStatement_ending read)).after passes

theorem passes_gap (ordinary : Ordinary flavor) (cells : List Cell) :
    Passes flavor .start cells [] .start (cells.dropWhile Piece.isGap) := by
  induction cells with
  | nil => exact .refl _ _
  | cons c rest ih =>
    rw [List.dropWhile_cons]
    split
    next gap =>
      refine .cons ?_ ih
      simp only [Piece.isGap, Bool.or_eq_true, beq_iff_eq] at gap
      rcases gap with blank | semicolon
      · simp only [State.step, State.start, stepPlain_blank ordinary _ blank, State.keep, if_true]
      · simp only [State.step, State.start, stepPlain_semicolon ordinary _ semicolon, State.ended,
          if_true]
    next => exact .refl _ _

theorem yields_next (ordinary : Ordinary flavor) {cells : List Cell}
    (result : Except ParseError (Piece × List Cell)) (h : Piece.next flavor cells = result.map some) :
    Yields flavor .start cells result := by
  have gap := List.head?_dropWhile_not Piece.isGap cells
  have first := passes_gap ordinary cells
  unfold Piece.next at h
  split at h
  next done => cases result <;> cases h
  next c rest cut =>
    rw [cut] at gap first
    have same : Piece.ofCell flavor c rest = result := by
      cases made : Piece.ofCell flavor c rest <;> cases result <;> simp_all [Except.map]
    rw [← same]
    exact (yields_ofCell ordinary c rest (by simpa using gap)).after first

/-! ## The scan of a whole text -/

theorem scan_gap (ordinary : Ordinary flavor) (cells : List Cell) :
    scan flavor .start cells = scan flavor .start (cells.dropWhile Piece.isGap) := by
  rw [(passes_gap ordinary cells).scan_eq]
  simp

theorem Between.scan_eq (ordinary : Ordinary flavor) {s : State} {cells : List Cell}
    {pending : List Item} (h : Between s cells pending) :
    scan flavor s cells = (scan flavor .start cells).map (pending ++ ·) := by
  cases h with
  | start => simp
  | @closing text brace rest begun closes =>
    rw [scan_plain (stepPlain_closing ordinary text closes), State.start,
      scan_plain (stepPlain_closing ordinary [] closes)]
    simp [State.ended, begun, Function.comp_def]
  | ended outside =>
    obtain ⟨mode, parens, text⟩ := s
    rcases outside with rfl | rfl <;> simp [scan, State.finish, State.ended]

theorem scan_next (ordinary : Ordinary flavor) (cells : List Cell) :
    match Piece.next flavor cells with
    | .error _ => scan flavor .start cells = none
    | .ok none => scan flavor .start cells = some []
    | .ok (some (piece, rest)) => ∃ item : Item, item.Reads piece ∧
        scan flavor .start cells = (scan flavor .start rest).map (item :: ·) := by
  split
  next e failed =>
    have stuck : Stuck flavor .start cells e := yields_next ordinary (.error e) failed
    exact stuck.scan_eq
  next done =>
    rw [scan_gap ordinary, Piece.next_eq_none_iff.1 done]
    rfl
  next piece rest read =>
    obtain ⟨item, is, t, pending, reads, passes, between, one⟩ :=
      yields_next ordinary (.ok (piece, rest)) read
    refine ⟨item, reads, ?_⟩
    rw [passes.scan_eq, between.scan_eq ordinary, Option.map_map]
    simp only [Function.comp_def, ← List.append_assoc, one, List.singleton_append]

/-- The scan passes what the pieces of the text are read from, one item for each piece. -/
theorem scan_eq_pieces (ordinary : Ordinary flavor) (cells : List Cell) :
    match pieces flavor cells with
    | .error _ => scan flavor .start cells = none
    | .ok ps => ∃ is, scan flavor .start cells = some is ∧ List.Forall₂ Item.Reads is ps := by
  fun_induction pieces flavor cells with
  | case1 cells e next => simpa [next] using scan_next ordinary cells
  | case2 cells next => simpa [next] using scan_next ordinary cells
  | case3 cells piece rest next ih =>
    have first := scan_next ordinary cells
    simp only [next] at first
    obtain ⟨item, reads, eq⟩ := first
    cases h : pieces flavor rest with
    | error e => simpa [h, Except.map, eq] using ih
    | ok ps =>
      simp only [h] at ih
      obtain ⟨is, scanned, all⟩ := ih
      exact ⟨item :: is, by simp [eq, scanned], .cons reads all⟩

end Scan

end SheetLint.Brace