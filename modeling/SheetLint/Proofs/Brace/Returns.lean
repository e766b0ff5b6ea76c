import SheetLint.Proofs.Brace.Reading
import SheetLint.Proofs.Text.Return

namespace SheetLint.Brace

open Scan

/-- Whether a string that goes on like this has a newline right after a backslash. -/
def escapesNewline (quote : Char) : List Char → Bool
  | [] => false
  | c :: rest =>
    if c = '\n' then false
    else if c = '\\' then
      match rest with
      | [] => false
      | d :: rest => d == '\n' || escapesNewline quote rest
    else if c = quote then false
    else escapesNewline quote rest

/-- Whether a reading of the text `whole` and a reading of the same text with returns end alike: with
related results or in the same error, unless the second ends at a string in which a newline is
escaped. -/
inductive Agree (whole : List Cell) {α β : Type} (same : α → β → Prop) :
    Except ParseError α → Except ParseError β → Prop
  | ok {a : α} {b : β} (related : same a b) : Agree whole same (.ok a) (.ok b)
  | error (e : ParseError) : Agree whole same (.error e) (.error e)
  | cut {x : Except ParseError α} {c : Cell} {rest : List Cell} (quote : c.char = '"' ∨ c.char = '\'')
    (within : c :: rest <:+ whole) (escapes : escapesNewline c.char (Cell.chars rest) = true) :
    Agree whole same x (.error ⟨.unclosedString, c.pos⟩)

namespace Agree

variable {whole : List Cell} {α β γ δ : Type} {same : α → β → Prop} {x : Except ParseError α}
  {y : Except ParseError β}

theorem bind {same' : γ → δ → Prop} {f : α → Except ParseError γ} {g : β → Except ParseError δ}
    (h : Agree whole same x y)
    (later : ∀ a b, x = .ok a → same a b → Agree whole same' (f a) (g b)) :
    Agree whole same' (x.bind f) (y.bind g) := by
  cases h with
  | ok related => exact later _ _ rfl related
  | error e => exact .error e
  | cut quote within escapes => exact .cut quote within escapes

theorem map {same' : γ → δ → Prop} {f : α → γ} {g : β → δ} (h : Agree whole same x y)
    (later : ∀ a b, same a b → same' (f a) (g b)) : Agree whole same' (x.map f) (y.map g) := by
  cases h with
  | ok related => exact .ok (later _ _ related)
  | error e => exact .error e
  | cut quote within escapes => exact .cut quote within escapes

theorem mono {larger : List Cell} (h : Agree whole same x y) (within : whole <:+ larger) :
    Agree larger same x y := by
  cases h with
  | ok related => exact .ok related
  | error e => exact .error e
  | cut quote here escapes => exact .cut quote (here.trans within) escapes

end Agree

/-! ## Strings, comments and interpolations -/

structure Reading.Same (r s : Reading) : Prop where
  buffer : Returned r.1.reverse s.1.reverse
  rest : Returned r.2 s.2

theorem push {buffer other taken taken' : List Cell} (h : Returned buffer.reverse other.reverse)
    (next : Returned taken taken') :
    Returned (taken.reverse ++ buffer).reverse (taken'.reverse ++ other).reverse := by
  simpa using h.append next

section Readers

variable {buffer other cells more : List Cell}

theorem readString_visible {quote : Char} {c : Cell} (inline : c.char ≠ '\n')
    (backslash : c.char ≠ '\\') (buffer rest : List Cell) :
    readString quote buffer (c :: rest) =
      if c.char = quote then some (c :: buffer, rest) else readString quote (c :: buffer) rest := by
  cases rest <;> simp only [readString, if_neg inline, if_neg backslash]

theorem readString_newline (quote : Char) (buffer : List Cell) (p : Position) (rest : List Cell) :
    readString quote buffer (⟨'\n', p⟩ :: rest) = none := by
  cases rest <;> rw [readString, if_pos rfl]

theorem readString_return {quote : Char} (proper : quote ≠ '\r') (buffer : List Cell) (p : Position)
    (rest : List Cell) : readString quote buffer (⟨'\r', p⟩ :: rest) =
      readString quote (⟨'\r', p⟩ :: buffer) rest := by
  have inline : '\r' ≠ '\n' := by decide
  have backslash : '\r' ≠ '\\' := by decide
  rw [readString_visible inline backslash, if_neg proper.symm]

theorem readString_escape {quote : Char} {c : Cell} (backslash : c.char = '\\') (d : Cell)
    (buffer rest : List Cell) :
    readString quote buffer (c :: d :: rest) = readString quote (d :: c :: buffer) rest := by
  rw [readString, if_neg (by simp [backslash]), if_pos backslash]

theorem readString_same {quote : Char} (proper : quote ≠ '\r')
    (buffers : Returned buffer.reverse other.reverse) (h : Returned cells more) :
    Option.Rel Reading.Same (readString quote buffer cells) (readString quote other more) ∨
      readString quote other more = none ∧ escapesNewline quote (Cell.chars cells) = true := by
  fun_induction readString quote buffer cells generalizing other more with
  | case1 =>
    cases h
    exact .inl .none
  | case2 buffer c rest newline =>
    have unclosed : readString quote other more = none := by
      cases h with
      | keep _ inline => exact absurd newline inline
      | newline p q => exact readString_newline quote other q _
      | pair p q r => rw [readString_return proper, readString_newline]
    rw [unclosed]
    exact .inl .none
  | case3 buffer c inline backslash =>
    obtain ⟨later, rfl, ended⟩ := h.cons_of_ne inline
    cases ended
    have unclosed : readString quote other [c] = none := by
      rw [readString, if_neg inline, if_pos backslash]
    rw [unclosed]
    exact .inl .none
  | case4 buffer c inline backslash d rest ih =>
    have plain : c.char ≠ '\r' := by simp [backslash]
    obtain ⟨later, rfl, next⟩ := h.cons_of_ne inline
    have escape : escapesNewline quote (Cell.chars (c :: d :: rest)) =
        (d.char == '\n' || escapesNewline quote (Cell.chars rest)) := by
      rw [chars_cons, chars_cons, escapesNewline, if_neg inline, if_pos backslash]
    have taken : Returned (c :: buffer).reverse (c :: other).reverse :=
      push buffers (.keep c inline plain .nil)
    rw [escape]
    -- Of an escaped newline with a return before it, the backslash takes the return only.
    cases next with
    | keep _ here visible later =>
      rw [readString_escape backslash]
      rcases ih (push taken (.keep d here visible .nil)) later with same | ⟨unclosed, escapes⟩
      · exact .inl same
      · exact .inr ⟨unclosed, by simp [escapes]⟩
    | newline p q later =>
      rw [readString_escape backslash]
      rcases ih (push taken (.newline p q .nil)) later with same | ⟨unclosed, -⟩
      · exact .inl same
      · exact .inr ⟨unclosed, rfl⟩
    | pair p q r later =>
      rw [readString_escape backslash, readString_newline]
      exact .inr ⟨rfl, rfl⟩
  | case5 buffer c rest inline backslash closed =>
    have plain : c.char ≠ '\r' := by rwa [closed]
    obtain ⟨later, rfl, next⟩ := h.cons_of_ne inline
    rw [readString_visible inline backslash, if_pos closed]
    exact .inl (.some ⟨push buffers (.keep c inline plain .nil), next⟩)
  | case6 buffer c rest inline backslash open' ih =>
    have escape : escapesNewline quote (Cell.chars (c :: rest)) =
        escapesNewline quote (Cell.chars rest) := by
      cases rest <;>
        simp only [Cell.chars, List.map_cons, List.map_nil, escapesNewline, if_neg inline,
          if_neg backslash, if_neg open']
    rw [escape]
    cases h with
    | keep _ _ plain later =>
      rw [readString_visible inline backslash, if_neg open']
      exact ih (push buffers (.keep c inline plain .nil)) later
    | newline => exact absurd rfl inline
    | pair => exact absurd rfl inline

theorem readComment_step {c : Cell} {rest : List Cell}
    (inside : ¬(c.char = '*' ∧ startsWith '/' rest = true)) (buffer : List Cell) :
    readComment buffer (c :: rest) = readComment (c :: buffer) rest := by
  cases rest with
  | nil => rfl
  | cons d rest =>
    have open' : ¬(c.char = '*' ∧ d.char = '/') := by simpa [startsWith] using inside
    rw [readComment, if_neg open']

theorem startsWith_same {c : Char} (inline : c ≠ '\n') (plain : c ≠ '\r')
    (h : Returned cells more) : startsWith c more = startsWith c cells := by
  cases h with
  | nil => rfl
  | keep => rfl
  | newline => rfl
  | pair => simp [startsWith, inline.symm, plain.symm]

theorem exists_of_startsWith {c : Char} (inline : c ≠ '\n') (h : Returned cells more)
    (starts : startsWith c cells = true) : ∃ d rest later, cells = d :: rest ∧ more = d :: later ∧
      d.char = c ∧ Returned rest later := by
  cases cells with
  | nil => simp [startsWith] at starts
  | cons d rest =>
    have char : d.char = c := by simpa [startsWith] using starts
    obtain ⟨later, rfl, next⟩ := h.cons_of_ne (char ▸ inline)
    exact ⟨d, rest, later, rfl, rfl, char, next⟩

theorem readComment_same (buffers : Returned buffer.reverse other.reverse)
    (h : Returned cells more) :
    Option.Rel Reading.Same (readComment buffer cells) (readComment other more) := by
  induction h generalizing buffer other with
  | nil => exact .none
  | @keep rest later c inline plain next ih =>
    have taken := push buffers (.keep c inline plain .nil)
    by_cases closed : c.char = '*' ∧ startsWith '/' rest = true
    · obtain ⟨d, rest, later, rfl, rfl, slash, next⟩ :=
        exists_of_startsWith (by decide) next closed.2
      have both : c.char = '*' ∧ d.char = '/' := ⟨closed.1, slash⟩
      rw [readComment, readComment, if_pos both, if_pos both]
      exact .some ⟨push taken (.keep d (by simp [slash]) (by simp [slash]) .nil), next⟩
    · have open' : ¬(c.char = '*' ∧ startsWith '/' later = true) := by
        rwa [startsWith_same (by decide) (by decide) next]
      rw [readComment_step closed, readComment_step open']
      exact ih taken
  | newline p q next ih =>
    rw [readComment_step (by simp), readComment_step (by simp)]
    exact ih (push buffers (.newline p q .nil))
  | pair p q r next ih =>
    rw [readComment_step (by simp), readComment_step (by simp), readComment_step (by simp)]
    exact ih (push buffers (.pair p q r .nil))

theorem readInterpolation_step {c : Cell} (opened : c.char ≠ '{') (closed : c.char ≠ '}')
    (depth : Nat) (buffer rest : List Cell) :
    readInterpolation depth buffer (c :: rest) = readInterpolation depth (c :: buffer) rest := by
  cases depth <;> rw [readInterpolation, if_neg opened, if_neg closed]

theorem readInterpolation_same {depth : Nat} (buffers : Returned buffer.reverse other.reverse)
    (h : Returned cells more) :
    Option.Rel Reading.Same (readInterpolation depth buffer cells)
      (readInterpolation depth other more) := by
  induction h generalizing depth buffer other with
  | nil => exact .none
  | keep c inline plain next ih =>
    have taken := push buffers (.keep c inline plain .nil)
    cases depth with
    | zero =>
      rw [readInterpolation, readInterpolation]
      split_ifs
      · exact ih taken
      · exact .some ⟨taken, next⟩
      · exact ih taken
    | succ depth =>
      rw [readInterpolation, readInterpolation]
      split_ifs
      · exact ih taken
      · exact ih taken
      · exact ih taken
  | newline p q next ih =>
    rw [readInterpolation_step (by simp) (by simp), readInterpolation_step (by simp) (by simp)]
    exact ih (push buffers (.newline p q .nil))
  | pair p q r next ih =>
    rw [readInterpolation_step (by simp) (by simp), readInterpolation_step (by simp) (by simp),
      readInterpolation_step (by simp) (by simp)]
    exact ih (push buffers (.pair p q r .nil))

theorem afterLine_same (h : Returned cells more) :
    Returned (afterLine cells) (afterLine more) := by
  unfold afterLine
  induction h with
  | nil => exact .nil
  | keep c inline plain later ih =>
    simpa [inline] using ih
  | newline p q later ih => exact .newline p q later
  | pair p q r later ih => exact .newline p r later

end Readers

/-! ## Statements -/

section Statements

variable {flavor : Flavor} {parens : Nat} {buffer other cells more : List Cell}

theorem readStatement_nil : readStatement flavor parens buffer [] = .ok (buffer, []) := by
  rw [readStatement]

theorem readStatement_cons (c : Cell) (rest : List Cell) :
    readStatement flavor parens buffer (c :: rest) =
      if c.char = '"' ∨ c.char = '\'' then
        (readString c.char (c :: buffer) rest).elim (.error ⟨.unclosedString, c.pos⟩)
          fun r => readStatement flavor parens r.1 r.2
      else if c.char = '/' ∧ startsWith '*' rest then
        (readComment (rest.take 1 ++ c :: buffer) (rest.drop 1)).elim
          (.error ⟨.unclosedComment, c.pos⟩) fun r => readStatement flavor parens r.1 r.2
      else if c.char = '/' ∧ parens = 0 ∧ flavor.lineComments ∧ startsWith '/' rest then
        readStatement flavor parens buffer (afterLine rest)
      else if flavor.interpolation = some c.char ∧ startsWith '{' rest then
        (readInterpolation 0 (rest.take 1 ++ c :: buffer) (rest.drop 1)).elim
          (.error ⟨.unclosedInterpolation, c.pos⟩) fun r => readStatement flavor parens r.1 r.2
      else if c.char = '(' then readStatement flavor (parens + 1) (c :: buffer) rest
      else if c.char = ')' then readStatement flavor (parens - 1) (c :: buffer) rest
      else if parens = 0 ∧ (c.char = ';' ∨ c.char = '{' ∨ c.char = '}') then
        .ok (buffer, c :: rest)
      else readStatement flavor parens (c :: buffer) rest := by
  rw [readStatement]
  split_ifs
  · split
    next unclosed => rw [unclosed]; rfl
    next read => rw [read]; rfl
  · split
    next unclosed => rw [unclosed]; rfl
    next read => rw [read]; rfl
  · rfl
  · split
    next unclosed => rw [unclosed]; rfl
    next read => rw [read]; rfl
  all_goals rfl

theorem readStatement_blank (ordinary : Ordinary flavor) {c : Cell} (blank : c.isBlank = true)
    (rest : List Cell) : readStatement flavor parens buffer (c :: rest) =
      readStatement flavor parens (c :: buffer) rest := by
  have unmarked := not_mem_marks_of_isBlank blank
  simp only [marks, List.mem_cons, List.not_mem_nil, or_false, not_or] at unmarked
  obtain ⟨double, single, slash, hash, at', left, right, semicolon, opening, closing⟩ := unmarked
  rw [readStatement_cons]
  simp [*, ordinary.ne_interpolation hash at']

theorem Agree.elim {whole : List Cell} {α β : Type} {same : α → β → Prop} {r s : Option Reading}
    {f : Reading → Except ParseError α} {g : Reading → Except ParseError β}
    (h : Option.Rel Reading.Same r s) (e : ParseError)
    (later : ∀ a b, r = some a → a.Same b → Agree whole same (f a) (g b)) :
    Agree whole same (r.elim (.error e) f) (s.elim (.error e) g) := by
  cases h with
  | some related => exact later _ _ rfl related
  | none => exact .error e

theorem readStatement_same (ordinary : Ordinary flavor)
    (buffers : Returned buffer.reverse other.reverse) (h : Returned cells more) :
    Agree cells Reading.Same (readStatement flavor parens buffer cells)
      (readStatement flavor parens other more) := by
  induction size : cells.length using Nat.strongRecOn
    generalizing cells more buffer other parens with
  | ind n ih =>
    subst size
    cases h with
    | nil =>
      rw [readStatement, readStatement]
      exact .ok ⟨buffers, .nil⟩
    | newline p q next =>
      rw [readStatement_blank ordinary rfl, readStatement_blank ordinary rfl]
      exact (ih _ (Nat.lt_succ_self _) (push buffers (.newline p q .nil)) next rfl).mono
        (List.suffix_cons _ _)
    | pair p q r next =>
      rw [readStatement_blank ordinary rfl, readStatement_blank ordinary rfl,
        readStatement_blank ordinary rfl]
      exact (ih _ (Nat.lt_succ_self _) (push buffers (.pair p q r .nil)) next rfl).mono
        (List.suffix_cons _ _)
    | @keep rest later c inline plain next =>
      have taken : Returned (c :: buffer).reverse (c :: other).reverse :=
        push buffers (.keep c inline plain .nil)
      have go {parens : Nat} {buffer other cells more : List Cell} (within : cells <:+ rest)
          (buffers : Returned buffer.reverse other.reverse) (h : Returned cells more) :
          Agree (c :: rest) Reading.Same (readStatement flavor parens buffer cells)
            (readStatement flavor parens other more) :=
        (ih _ (Nat.lt_succ_of_le within.length_le) buffers h rfl).mono
          (within.trans (List.suffix_cons c rest))
      -- Both readings see the same character before the same marks, so both take the same branch.
      rw [readStatement_cons, readStatement_cons, startsWith_same (by decide) (by decide) next,
        startsWith_same (by decide) (by decide) next, startsWith_same (by decide) (by decide) next]
      split_ifs with quote comment line braced opened closed ended
      · rcases readString_same plain taken next with same | ⟨unclosed, escapes⟩
        · apply Agree.elim same
          intro a b read same
          exact go (readString_grows read).suffix same.buffer same.rest
        · rw [unclosed]
          exact .cut quote List.suffix_rfl escapes
      · obtain ⟨d, rest, later, rfl, rfl, star, next⟩ :=
          exists_of_startsWith (by decide) next comment.2
        have both := push taken (.keep d (by simp [star]) (by simp [star]) .nil)
        apply Agree.elim (readComment_same both next)
        intro a b read same
        exact go ((readComment_grows read).suffix.trans (List.suffix_cons d rest)) same.buffer same.rest
      · exact go (List.dropWhile_suffix _) buffers (afterLine_same next)
      · obtain ⟨d, rest, later, rfl, rfl, brace, next⟩ :=
          exists_of_startsWith (by decide) next braced.2
        have both := push taken (.keep d (by simp [brace]) (by simp [brace]) .nil)
        apply Agree.elim (readInterpolation_same both next)
        intro a b read same
        exact go ((readInterpolation_grows read).suffix.trans (List.suffix_cons d rest)) same.buffer
          same.rest
      · exact go List.suffix_rfl taken next
      · exact go List.suffix_rfl taken next
      · exact .ok ⟨buffers, .keep c inline plain next⟩
      · exact go List.suffix_rfl taken next

end Statements

end SheetLint.Brace
