import SheetLint.Proofs.Brace.Prefix
import SheetLint.Proofs.Brace.Returns

namespace SheetLint.Brace

open Scan

variable {flavor : Flavor} {buffer cells more : List Cell} {r : Reading}

/-! ## Readers -/

theorem readString_append {quote : Char} (h : readString quote buffer cells = some r)
    (more : List Cell) : readString quote buffer (cells ++ more) = some (r.1, r.2 ++ more) := by
  fun_induction readString quote buffer cells with
  | case1 | case2 | case3 => cases h
  | case4 buffer c inline backslash d rest ih =>
    rw [List.cons_append, List.cons_append, readString_escape backslash, ih h]
  | case5 buffer c rest inline backslash closed =>
    cases h
    rw [List.cons_append, readString_visible inline backslash, if_pos closed]
  | case6 buffer c rest inline backslash open' ih =>
    rw [List.cons_append, readString_visible inline backslash, if_neg open', ih h]

theorem readComment_append (h : readComment buffer cells = some r) (more : List Cell) :
    readComment buffer (cells ++ more) = some (r.1, r.2 ++ more) := by
  fun_induction readComment buffer cells with
  | case1 buffer c d rest closed =>
    cases h
    rw [List.cons_append, List.cons_append, readComment, if_pos closed]
  | case2 buffer c d rest open' ih =>
    rw [List.cons_append, List.cons_append, readComment, if_neg open', ← List.cons_append, ih h]
  | case3 => cases h

theorem readInterpolation_opened {c : Cell} (opened : c.char = '{') (depth : Nat)
    (buffer rest : List Cell) : readInterpolation depth buffer (c :: rest) =
      readInterpolation (depth + 1) (c :: buffer) rest := by
  cases depth <;> rw [readInterpolation, if_pos opened]

theorem readInterpolation_append {depth : Nat} (h : readInterpolation depth buffer cells = some r)
    (more : List Cell) :
    readInterpolation depth buffer (cells ++ more) = some (r.1, r.2 ++ more) := by
  fun_induction readInterpolation depth buffer cells with
  | case1 => cases h
  | case2 depth buffer c rest opened ih =>
    rw [List.cons_append, readInterpolation_opened opened, ih h]
  | case3 buffer c rest opened closed =>
    cases h
    rw [List.cons_append, readInterpolation, if_neg opened, if_pos closed]
  | case4 buffer c rest opened closed depth ih =>
    rw [List.cons_append, readInterpolation, if_neg opened, if_pos closed, ih h]
  | case5 depth buffer c rest opened closed ih =>
    rw [List.cons_append, readInterpolation_step opened closed, ih h]

def Breaks (cells : List Cell) : Prop :=
  ∃ p rest, cells = ⟨'\n', p⟩ :: rest

theorem afterLine_append (ends : afterLine cells = [] → Breaks more) :
    afterLine (cells ++ more) = afterLine cells ++ more := by
  unfold afterLine at *
  rw [List.dropWhile_append]
  cases rest : cells.dropWhile (·.char != '\n') with
  | nil =>
    obtain ⟨p, more, rfl⟩ := ends rest
    rfl
  | cons c rest => rfl

theorem startsWith_append {c : Char} (inline : c ≠ '\n') (ends : cells = [] → Breaks more) :
    startsWith c (cells ++ more) = startsWith c cells := by
  cases cells with
  | nil =>
    obtain ⟨p, more, rfl⟩ := ends rfl
    simp [startsWith, inline.symm]
  | cons d cells => rfl

theorem length_pos_of_startsWith {c : Char} (h : startsWith c cells = true) :
    1 ≤ cells.length := by
  obtain ⟨d, rest, rfl, -⟩ := head?_eq_of_startsWith h
  exact Nat.le_add_left 1 _

theorem startsWith_append_of_pos (nonempty : 1 ≤ cells.length) (c : Char) (more : List Cell) :
    startsWith c (cells ++ more) = startsWith c cells := by
  cases cells with
  | nil => cases nonempty
  | cons d cells => rfl

theorem readStatement_append {parens : Nat} (ordinary : Ordinary flavor)
    (h : readStatement flavor parens buffer cells = .ok r) (ends : r.2 = [] → Breaks more) :
    ∃ open', readStatement flavor parens buffer (cells ++ more) =
      readStatement flavor open' r.1 (r.2 ++ more) ∧ (r.2 ≠ [] → open' = 0) := by
  -- A statement also ends with its text while parentheses are open; `open'` says how many.
  fun_induction readStatement flavor parens buffer cells with
  | case1 parens buffer =>
    cases h
    exact ⟨parens, rfl, fun nonempty => absurd rfl nonempty⟩
  | case2 | case4 | case7 => cases h
  | case3 parens buffer c rest quote r' read ih =>
    obtain ⟨open', later, closed⟩ := ih h
    refine ⟨open', ?_, closed⟩
    rw [← later, List.cons_append, readStatement_cons, if_pos quote, readString_append read]
    rfl
  | case5 parens buffer c rest quote comment r' read ih =>
    obtain ⟨open', later, closed⟩ := ih h
    refine ⟨open', ?_, closed⟩
    have nonempty := length_pos_of_startsWith comment.2
    rw [← later, List.cons_append, readStatement_cons, startsWith_append_of_pos nonempty, if_neg quote,
      if_pos comment, List.take_append_of_le_length nonempty, List.drop_append_of_le_length nonempty,
      readComment_append read]
    rfl
  | case6 parens buffer c rest quote comment line ih =>
    obtain ⟨open', later, closed⟩ := ih h
    refine ⟨open', ?_, closed⟩
    have cut : afterLine (rest ++ more) = afterLine rest ++ more := by
      apply afterLine_append
      intro ended
      apply ends
      rw [ended, readStatement] at h
      cases h
      rfl
    have nonempty := length_pos_of_startsWith line.2.2.2
    rw [← later, ← cut, List.cons_append, readStatement_cons, startsWith_append_of_pos nonempty,
      startsWith_append_of_pos nonempty, if_neg quote, if_neg comment, if_pos line]
  | case8 parens buffer c rest quote comment line braced r' read ih =>
    obtain ⟨open', later, closed⟩ := ih h
    refine ⟨open', ?_, closed⟩
    have nonempty := length_pos_of_startsWith braced.2
    rw [← later, List.cons_append, readStatement_cons, startsWith_append_of_pos nonempty,
      startsWith_append_of_pos nonempty, startsWith_append_of_pos nonempty, if_neg quote, if_neg comment,
      if_neg line, if_pos braced, List.take_append_of_le_length nonempty,
      List.drop_append_of_le_length nonempty, readInterpolation_append read]
    rfl
  | case9 parens buffer c rest quote comment line braced opened ih =>
    obtain ⟨open', later, closed⟩ := ih h
    refine ⟨open', ?_, closed⟩
    rw [← later, List.cons_append, readStatement_cons]
    simp [opened, ordinary.ne_interpolation (c := '(') (by decide) (by decide)]
  | case10 parens buffer c rest quote comment line braced opened closed ih =>
    obtain ⟨open', later, closed'⟩ := ih h
    refine ⟨open', ?_, closed'⟩
    rw [← later, List.cons_append, readStatement_cons]
    simp [closed, ordinary.ne_interpolation (c := ')') (by decide) (by decide)]
  | case11 parens buffer c rest quote comment line braced opened closed ended =>
    cases h
    exact ⟨0, by rw [ended.1], fun _ => rfl⟩
  | case12 parens buffer c rest quote comment line braced opened closed ended ih =>
    obtain ⟨open', later, closed'⟩ := ih h
    refine ⟨open', ?_, closed'⟩
    have last : rest = [] → Breaks more := by
      rintro rfl
      apply ends
      rw [readStatement] at h
      cases h
      rfl
    rw [← later, List.cons_append, readStatement_cons, startsWith_append (by decide) last,
      startsWith_append (by decide) last, startsWith_append (by decide) last, if_neg quote,
      if_neg comment, if_neg line, if_neg braced, if_neg opened, if_neg closed, if_neg ended]

theorem readStatement_stop (ordinary : Ordinary flavor) {d : Cell}
    (ends : d.char = ';' ∨ d.char = '{' ∨ d.char = '}') (buffer rest : List Cell) :
    readStatement flavor 0 buffer (d :: rest) = .ok (buffer, d :: rest) := by
  rw [readStatement_cons]
  rcases ends with char | char | char
  all_goals simp [char, ordinary.ne_interpolation]

theorem readStatement_letter (parens : Nat) (buffer : List Cell) (p : Position) :
    readStatement flavor parens buffer [⟨'x', p⟩] = .ok (⟨'x', p⟩ :: buffer, []) := by
  rw [readStatement_cons]
  simp [startsWith, readStatement]

theorem scan_letter (p : Position) :
    scan flavor .start [⟨'x', p⟩] = some [.statement [⟨'x', p⟩] none] := by
  have visible : Cell.isBlank ⟨'x', p⟩ = false := rfl
  simp [scan, State.step, State.stepPlain, State.finish, State.ended, State.take, visible]

/-! ## Pieces -/

theorem takeWhile_append_of_dropWhile {p : Cell → Bool} (ends : cells.dropWhile p ≠ [])
    (more : List Cell) : (cells ++ more).takeWhile p = cells.takeWhile p := by
  induction cells with
  | nil => exact absurd rfl ends
  | cons c cells ih =>
    rw [List.cons_append, List.takeWhile_cons, List.takeWhile_cons]
    split
    next taken =>
      rw [List.dropWhile_cons_of_pos taken] at ends
      rw [ih ends]
    next => rfl

namespace Piece

theorem ofStatement_append {left : List Cell} (nonempty : left ≠ []) (buffer more : List Cell) :
    ofStatement buffer (left ++ more) =
      ((ofStatement buffer left).1, (ofStatement buffer left).2 ++ more) := by
  cases left with
  | nil => exact absurd rfl nonempty
  | cons d left =>
    rw [List.cons_append, ofStatement, ofStatement]
    split_ifs <;> rfl

section OfCell

variable {c : Cell} {rest : List Cell}

theorem ofCell_block (slash : c.char = '/') (star : startsWith '*' rest = true) :
    ofCell flavor c rest = (readComment [] (rest.drop 1)).elim (.error ⟨.unclosedComment, c.pos⟩)
      fun r => .ok (commentOf c (r.1.drop 2).reverse false, r.2) := by
  rw [ofCell, if_neg (by simp [slash]), if_neg (by simp [slash]), if_pos ⟨slash, star⟩]
  cases readComment [] (rest.drop 1) <;> rfl

theorem ofCell_line (slash : c.char = '/') (allowed : flavor.lineComments = true)
    (again : startsWith '/' rest = true) :
    ofCell flavor c rest =
      .ok (commentOf c ((rest.drop 1).takeWhile (·.char != '\n')) true, afterLine rest) := by
  obtain ⟨d, more, rfl, char⟩ := head?_eq_of_startsWith again
  rw [ofCell, if_neg (by simp [slash]), if_neg (by simp [slash]),
    if_neg (by simp [startsWith, char]), if_pos ⟨slash, allowed, again⟩]

theorem ofCell_statement (brace : c.char ≠ '}' ∧ c.char ≠ '{')
    (block : ¬(c.char = '/' ∧ startsWith '*' rest = true))
    (line : ¬(c.char = '/' ∧ flavor.lineComments = true ∧ startsWith '/' rest = true)) :
    ofCell flavor c rest =
      (readStatement flavor 0 [] (c :: rest)).map fun r => ofStatement r.1 r.2 := by
  rw [ofCell, if_neg brace.1, if_neg brace.2, if_neg block, if_neg line]

/-- Whether a piece and what remains are read from any longer text, too, or the piece is all of the text
and is still one piece when the text goes on with something that is no gap. -/
def Continues (flavor : Flavor) (c : Cell) (rest : List Cell) (p : Piece × List Cell) : Prop :=
  (∀ more, ofCell flavor c (rest ++ more) = .ok (p.1, p.2 ++ more)) ∨
    p.2 = [] ∧ ∃ more item, scan flavor .start more = some [item] ∧
      ∃ piece, ofCell flavor c (rest ++ more) = .ok (piece, [])

theorem continues_block {p : Piece × List Cell} (slash : c.char = '/')
    (star : startsWith '*' rest = true) (h : ofCell flavor c rest = .ok p) :
    Continues flavor c rest p := by
  have nonempty := length_pos_of_startsWith star
  refine .inl fun more => ?_
  rw [ofCell_block slash star] at h
  rw [ofCell_block slash (by rw [startsWith_append_of_pos nonempty, star]),
    List.drop_append_of_le_length nonempty]
  cases read : readComment [] (rest.drop 1) with
  | none =>
    rw [read] at h
    cases h
  | some r =>
    rw [read] at h
    cases h
    rw [readComment_append read]
    rfl

theorem continues_line {p : Piece × List Cell} (slash : c.char = '/')
    (allowed : flavor.lineComments = true) (again : startsWith '/' rest = true)
    (h : ofCell flavor c rest = .ok p) :
    Continues flavor c rest p := by
  have nonempty := length_pos_of_startsWith again
  have longer (more : List Cell) :
      ofCell flavor c (rest ++ more) = .ok (commentOf c
        ((rest.drop 1 ++ more).takeWhile (·.char != '\n')) true, afterLine (rest ++ more)) := by
    rw [ofCell_line slash allowed (by rw [startsWith_append_of_pos nonempty, again]),
      List.drop_append_of_le_length nonempty]
  rw [ofCell_line slash allowed again] at h
  cases h
  by_cases ended : afterLine rest = []
  · have inside : afterLine (rest ++ [⟨'x', .start⟩]) = [] := by
      unfold afterLine at *
      rw [List.dropWhile_append, ended]
      rfl
    exact .inr ⟨ended, _, _, scan_letter .start, _, (longer _).trans (by rw [inside])⟩
  · refine .inl fun more => ?_
    rw [longer, afterLine_append (fun no => absurd no ended), takeWhile_append_of_dropWhile]
    obtain ⟨d, more, rfl, char⟩ := head?_eq_of_startsWith again
    simpa [afterLine, char] using ended

theorem continues_statement (ordinary : Ordinary flavor) {r : Reading}
    (outside : c.char ∉ [';', '{', '}'])
    (block : ¬(c.char = '/' ∧ startsWith '*' rest = true))
    (line : ¬(c.char = '/' ∧ flavor.lineComments = true ∧ startsWith '/' rest = true))
    (read : readStatement flavor 0 [] (c :: rest) = .ok r) :
    Continues flavor c rest (ofStatement r.1 r.2) := by
  have brace : c.char ≠ '}' ∧ c.char ≠ '{' := by simp_all
  by_cases ended : r.2 = []
  · have breaks : Breaks [⟨'\n', .start⟩, ⟨'x', .start⟩] := ⟨_, _, rfl⟩
    obtain ⟨open', later, -⟩ := readStatement_append ordinary read fun _ => breaks
    have single : scan flavor .start [⟨'\n', .start⟩, ⟨'x', .start⟩] =
        some [.statement [⟨'x', .start⟩] none] := by
      rw [scan_gap ordinary]
      exact scan_letter .start
    refine .inr ⟨by rw [ended]; rfl, _, _, single, ?_⟩
    rw [ofCell_statement brace, ← List.cons_append, later, ended, List.nil_append,
      readStatement_blank ordinary rfl, readStatement_letter]
    · exact ⟨_, rfl⟩
    · rwa [startsWith_append (by decide) fun _ => breaks]
    · rwa [startsWith_append (by decide) fun _ => breaks]
  · refine .inl fun more => ?_
    obtain ⟨open', later, closed⟩ :
        ∃ open', readStatement flavor 0 [] (c :: rest ++ more) = _ ∧ (r.2 ≠ [] → open' = 0) :=
      readStatement_append ordinary read fun no => absurd no ended
    have nonempty : 1 ≤ rest.length := by
      have shorter := length_readStatement_lt read (by simpa using outside)
      have left := List.length_pos_iff.2 ended
      rw [List.length_cons] at shorter
      omega
    have stops : readStatement flavor 0 r.1 (r.2 ++ more) = .ok (r.1, r.2 ++ more) := by
      obtain empty | ⟨d, left, split, ends⟩ := readStatement_ending read
      · exact absurd empty ended
      · rw [split]
        exact readStatement_stop ordinary ends r.1 (left ++ more)
    rw [List.cons_append, closed ended, stops] at later
    rw [ofCell_statement brace, later]
    · exact congrArg Except.ok (ofStatement_append ended r.1 more)
    · rwa [startsWith_append_of_pos nonempty]
    · rwa [startsWith_append_of_pos nonempty]

theorem continues_ofCell (ordinary : Ordinary flavor) {p : Piece × List Cell}
    (gap : isGap c = false) (h : ofCell flavor c rest = .ok p) :
    Continues flavor c rest p := by
  by_cases closing : c.char = '}'
  · rw [ofCell, if_pos closing] at h
    cases h
    exact .inl fun more => by rw [ofCell, if_pos closing]
  by_cases opening : c.char = '{'
  · rw [ofCell, if_neg closing, if_pos opening] at h
    cases h
    exact .inl fun more => by rw [ofCell, if_neg closing, if_pos opening]
  by_cases block : c.char = '/' ∧ startsWith '*' rest = true
  · exact continues_block block.1 block.2 h
  by_cases line : c.char = '/' ∧ flavor.lineComments = true ∧ startsWith '/' rest = true
  · exact continues_line line.1 line.2.1 line.2.2 h
  rw [ofCell_statement ⟨closing, opening⟩ block line] at h
  obtain ⟨r, read, rfl⟩ := map_eq_ok_iff.1 h
  have outside : c.char ∉ [';', '{', '}'] := by
    simp [isGap] at gap
    simp [gap, closing, opening]
  exact continues_statement ordinary outside block line read

end OfCell

theorem next_append_of_none (h : next flavor cells = .ok none) (more : List Cell) :
    next flavor (cells ++ more) = next flavor more := by
  rw [next, next, List.dropWhile_append, next_eq_none_iff.1 h]
  rfl

theorem continues_next (ordinary : Ordinary flavor) {p : Piece × List Cell}
    (h : next flavor cells = .ok (some p)) :
    (∀ more, next flavor (cells ++ more) = .ok (some (p.1, p.2 ++ more))) ∨
      p.2 = [] ∧ ∃ more item, scan flavor .start more = some [item] ∧
        ∃ piece, next flavor (cells ++ more) = .ok (some (piece, [])) := by
  have first := List.head?_dropWhile_not isGap cells
  obtain ⟨c, rest, cut, made⟩ := next_eq_some_iff.1 h
  have longer (more : List Cell) :
      next flavor (cells ++ more) = (ofCell flavor c (rest ++ more)).map some := by
    rw [next, List.dropWhile_append, cut]
    rfl
  simp only [longer]
  rcases continues_ofCell ordinary (by simpa [cut] using first) made with
    same | ⟨ended, more, item, single, piece, whole⟩
  · exact .inl fun more => by rw [same]; rfl
  · exact .inr ⟨ended, more, item, single, piece, by rw [whole]; rfl⟩

end Piece

/-! ## Outlines -/

def Settled (flavor : Flavor) (cells : List Cell) (is : List Item) : Prop :=
  ∀ more, scan flavor .start (cells ++ more) = (scan flavor .start more).map (is ++ ·)

theorem Settled.scan_eq {is : List Item} (h : Settled flavor cells is) :
    scan flavor .start cells = some is := by
  simpa [scan, State.finish, State.ended] using h []

theorem Settled.next {is : List Item} {p : Piece × List Cell} (ordinary : Ordinary flavor)
    (h : Settled flavor cells is) (read : Piece.next flavor cells = .ok (some p)) :
    (∀ more, Piece.next flavor (cells ++ more) = .ok (some (p.1, p.2 ++ more))) ∧
      ∃ later, Settled flavor p.2 later := by
  have scanned {cells : List Cell} {p : Piece × List Cell}
      (read : Piece.next flavor cells = .ok (some p)) :
      ∃ item, scan flavor .start cells = (scan flavor .start p.2).map (item :: ·) := by
    have first := scan_next ordinary cells
    simp only [read] at first
    obtain ⟨item, -, eq⟩ := first
    exact ⟨item, eq⟩
  obtain ⟨item, eq⟩ := scanned read
  obtain ⟨later, -, rfl⟩ := Option.map_eq_some_iff.1 (eq.symm.trans h.scan_eq)
  rcases Piece.continues_next ordinary read with same | ⟨ended, more, item', single, piece, whole⟩
  · refine ⟨same, later, fun more => ?_⟩
    obtain ⟨item', eq'⟩ := scanned (same more)
    rw [h more] at eq'
    cases found : scan flavor .start more with
    | none =>
      rw [found] at eq'
      exact Option.map_eq_none_iff.1 eq'.symm
    | some is =>
      rw [found] at eq'
      obtain ⟨is', found', split⟩ := Option.map_eq_some_iff.1 eq'.symm
      rw [found', (List.cons.inj split).2]
      rfl
  · -- A last piece that goes on would make one item of what are two.
    obtain ⟨item'', eq'⟩ := scanned whole
    rw [h more, single] at eq'
    simp [scan, State.finish, State.ended] at eq'

theorem Outline.readAll_append {limit : Option Nat} {o : Outline} {nodes : List Node} {is : List Item}
    (ordinary : Ordinary flavor) (settled : Settled flavor cells is)
    (read : o.readAll flavor limit cells = .ok nodes) :
    ∃ o' : Outline, o'.finish = .ok nodes ∧
      ∀ more, o.readAll flavor limit (cells ++ more) = o'.readAll flavor limit more := by
  fun_induction Outline.readAll flavor limit o cells generalizing is with
  | case1 o cells e failed => cases read
  | case2 o cells done =>
    refine ⟨o, read, fun more => ?_⟩
    rw [Outline.readAll_eq, Outline.readAll_eq o more, Piece.next_append_of_none done]
  | case3 o cells piece rest next e failed => cases read
  | case4 o cells piece rest next mid added ih =>
    obtain ⟨longer, later, settled⟩ := settled.next ordinary next
    obtain ⟨o', finished, same⟩ := ih settled read
    refine ⟨o', finished, fun more => ?_⟩
    rw [← same, Outline.readAll_eq, longer]
    simp only [Except.bind, Option.elim_some, added]

end SheetLint.Brace
