import Mathlib.Tactic.SplitIfs
import SheetLint.Proofs.Brace.Scan
import SheetLint.Proofs.Source

namespace SheetLint.Brace.Scan

/-- Whether `b` may be collected right after `a`: it stands there, or a comment between them has been
left out and `b` is the newline that ends it. -/
def Follows (a b : Cell) : Prop :=
  b.pos = a.pos.after a.char ∨ b.char = '\n' ∧ b.pos.line = (a.pos.after a.char).line

/-! ## One step -/

inductive Moves (s : State) (c : Cell) (next : Option Char) : List Item → State → Prop
  | collect {t : State} (before : s.mode ≠ .line) (now : t.mode ≠ .line)
      (text : t.text = s.text ++ [c] ∨ s.text = [] ∧ t.text = []) : Moves s c next [] t
  | comment (slash : c.char = '/') (star : next = some '*') (before : s.mode = .plain) :
      Moves s c next (s.commented c false) (s.keep c .opening)
  | line (slash : c.char = '/') (again : next = some '/') (before : s.mode = .plain) :
      Moves s c next (s.commented c true) { s with mode := .line }
  | pass (inside : s.mode = .line) :
      Moves s c next [] { s with mode := if next = some '\n' then .plain else .line }
  | semicolon (before : s.mode = .plain) : Moves s c next (s.ended (some c)) .start
  | opening (brace : c.char = '{') (before : s.mode = .plain) :
      Moves s c next [.opening s.text c] .start
  | closing (before : s.mode = .plain) :
      Moves s c next (s.ended (some c) ++ [.closing c]) .start

theorem text_keep (s : State) (c : Cell) (mode : Mode) :
    (s.keep c mode).text = s.text ++ [c] ∨ s.text = [] ∧ (s.keep c mode).text = [] := by
  by_cases h : s.text = []
  · exact .inr ⟨h, by simp [State.keep, h]⟩
  · exact .inl (by simp [State.keep, h])

theorem moves_of_stepPlain {flavor : Flavor} {s : State} {c : Cell} {next : Option Char}
    (plain : s.mode = .plain) :
    Moves s c next (s.stepPlain flavor c next).1 (s.stepPlain flavor c next).2 := by
  have before : s.mode ≠ .line := by simp [plain]
  unfold State.stepPlain
  split_ifs with quote block line braced left right semicolon opening closing blank
  · exact .collect before nofun (.inl rfl)
  · exact .comment block.1 block.2 plain
  · exact .line line.1 line.2.2.2 plain
  · exact .collect before nofun (.inl rfl)
  · exact .collect before nofun (.inl rfl)
  · exact .collect before nofun (.inl rfl)
  · exact .semicolon plain
  · exact .opening opening.2 plain
  · exact .closing plain
  · exact .collect before nofun (text_keep s c _)
  · exact .collect before nofun (.inl rfl)

theorem moves_of_step {flavor : Flavor} {s t : State} {c : Cell} {next : Option Char}
    {p : List Item} (h : s.step flavor c next = some (p, t)) : Moves s c next p t := by
  unfold State.step at h
  split at h
  next plain =>
    obtain ⟨rfl, rfl⟩ := Prod.mk.inj (Option.some.inj h)
    exact moves_of_stepPlain plain
  next quote inside =>
    have before : s.mode ≠ .line := by simp [inside]
    split_ifs at h with newline escape closed
    all_goals cases h
    all_goals exact .collect before nofun (.inl rfl)
  next quote inside =>
    cases h
    exact .collect (by simp [inside]) nofun (.inl rfl)
  next inside =>
    cases h
    exact .collect (by simp [inside]) nofun (text_keep s c _)
  next inside =>
    cases h
    refine .collect (by simp [inside]) ?_ (text_keep s c _)
    simp only [State.keep]
    split <;> nofun
  next inside =>
    cases h
    exact .collect (by simp [inside]) nofun (text_keep s c _)
  next inside =>
    cases h
    exact .pass inside
  next depth inside =>
    have before : s.mode ≠ .line := by simp [inside]
    split_ifs at h with opened closed last
    all_goals cases h
    all_goals exact .collect before nofun (.inl rfl)

/-! ## A whole scan -/

structure Holds (s : State) (passed rest : List Cell) : Prop where
  sublist : List.Sublist s.text passed
  chain : s.text.IsChain Follows
  next : ∀ a ∈ s.text.getLast?, ∀ c ∈ rest.head?,
    if s.mode = .line then c.pos.line = (a.pos.after a.char).line else Follows a c
  line : s.mode = .line → ∀ c ∈ rest.head?, c.char ≠ '\n'

def Item.In (source : List Cell) : Item → Prop
  | .comment slash inline => ∃ before second after, source = before ++ slash :: second :: after ∧
      slash.char = '/' ∧ second.char = if inline then '/' else '*'
  | .statement text ending => text.IsChain Follows ∧ List.Sublist (text ++ ending.toList) source
  | .opening text brace => brace.char = '{' ∧ List.Sublist (text ++ [brace]) source
  | .closing _ => True

theorem holds_start (passed rest : List Cell) : Holds .start passed rest :=
  ⟨List.nil_sublist _, .nil, by simp, by simp⟩

theorem Holds.collect {s t : State} {c : Cell} {passed rest : List Cell}
    (holds : Holds s passed (c :: rest)) (text : t.text = s.text ++ [c] ∨ s.text = [] ∧ t.text = [])
    (before : s.mode ≠ .line) (now : t.mode ≠ .line)
    (after : ∀ d ∈ rest.head?, d.pos = c.pos.after c.char) : Holds t (passed ++ [c]) rest := by
  rcases text with text | ⟨-, text⟩
  · refine ⟨?_, ?_, ?_, fun line => absurd line now⟩
    · rw [text]
      exact holds.sublist.append (.refl _)
    · rw [text]
      refine holds.chain.append (.singleton c) ?_
      intro a last d head
      cases head
      simpa [before] using holds.next a last c rfl
    · intro a last d head
      rw [text, List.getLast?_concat] at last
      cases last
      simp only [if_neg now]
      exact .inl (after d head)
  · refine ⟨by simp [text], by simp [text], by simp [text], fun line => absurd line now⟩

theorem Holds.move {s t : State} {c : Cell} {passed rest : List Cell} {p : List Item}
    (holds : Holds s passed (c :: rest)) (after : ∀ d ∈ rest.head?, d.pos = c.pos.after c.char)
    (moves : Moves s c (rest.head?.map Cell.char) p t) : Holds t (passed ++ [c]) rest := by
  cases moves with
  | collect before now text => exact holds.collect text before now after
  | comment slash star before =>
    exact holds.collect (text_keep s c _) (by simp [before]) nofun after
  | line slash again before =>
    refine ⟨holds.sublist.trans (List.sublist_append_left _ _), holds.chain, ?_, ?_⟩
    · intro a last d head
      have follows : Follows a c := by simpa [before] using holds.next a last c rfl
      have here : c.char ≠ '\n' := by simp [slash]
      rw [if_pos rfl, after d head, Position.after_line_of_ne here]
      rcases follows with pos | ⟨newline, -⟩
      · rw [pos]
      · exact absurd newline here
    · intro _ d head
      rw [Option.mem_def.1 head] at again
      simp [Option.some.inj again]
  | pass inside =>
    have here : c.char ≠ '\n' := holds.line inside c rfl
    refine ⟨holds.sublist.trans (List.sublist_append_left _ _), holds.chain, ?_, ?_⟩
    · intro a last d head
      have same : d.pos.line = (a.pos.after a.char).line := by
        rw [after d head, Position.after_line_of_ne here]
        simpa [inside] using holds.next a last c rfl
      by_cases newline : d.char = '\n'
      · simpa [Option.mem_def.1 head, newline] using .inr ⟨newline, same⟩
      · simpa [Option.mem_def.1 head, newline] using same
    · intro still d head newline
      simp [Option.mem_def.1 head, newline] at still
  | semicolon | opening | closing => exact holds_start _ _

theorem in_ended {s : State} {passed rest source : List Cell} (ending : Option Cell)
    (holds : Holds s passed rest) (within : List.Sublist (passed ++ ending.toList) source) :
    ∀ i ∈ s.ended ending, i.In source := by
  intro i mem
  unfold State.ended at mem
  split at mem
  · cases mem
  · cases List.mem_singleton.1 mem
    exact ⟨holds.chain, (holds.sublist.append (.refl _)).trans within⟩

theorem in_commented {s : State} {c : Cell} {passed rest : List Cell} {inline : Bool}
    (slash : c.char = '/')
    (second : rest.head?.map Cell.char = some (if inline then '/' else '*')) :
    ∀ i ∈ s.commented c inline, i.In (passed ++ c :: rest) := by
  intro i mem
  unfold State.commented at mem
  split at mem
  · cases List.mem_singleton.1 mem
    cases rest with
    | nil => simp at second
    | cons d rest => exact ⟨passed, d, rest, rfl, slash, by simpa using second⟩
  · cases mem

theorem Holds.passed_in {s t : State} {c : Cell} {passed rest : List Cell} {p : List Item}
    (holds : Holds s passed (c :: rest)) (moves : Moves s c (rest.head?.map Cell.char) p t) :
    ∀ i ∈ p, i.In (passed ++ c :: rest) := by
  have within : List.Sublist (passed ++ [c]) (passed ++ c :: rest) :=
    (List.Sublist.refl passed).append (List.singleton_sublist.2 List.mem_cons_self)
  cases moves with
  | collect | pass => simp
  | comment slash star before => exact in_commented slash star
  | line slash again before => exact in_commented slash again
  | semicolon before => exact in_ended (some c) holds within
  | opening brace before =>
    intro i mem
    cases List.mem_singleton.1 mem
    exact ⟨brace, (holds.sublist.append (.refl _)).trans within⟩
  | closing before =>
    intro i mem
    rcases List.mem_append.1 mem with mem | mem
    · exact in_ended (some c) holds within i mem
    · cases List.mem_singleton.1 mem
      trivial

theorem scan_in {flavor : Flavor} {s : State} {passed rest : List Cell} {is : List Item}
    (chain : rest.IsChain fun a b => b.pos = a.pos.after a.char) (holds : Holds s passed rest)
    (h : scan flavor s rest = some is) : ∀ i ∈ is, i.In (passed ++ rest) := by
  induction rest generalizing s passed is with
  | nil =>
    simp only [scan, State.finish] at h
    split at h <;> cases h
    all_goals exact in_ended none holds (by simp)
  | cons c rest ih =>
    rw [scan] at h
    split at h
    · cases h
    next p t step =>
      obtain ⟨more, scanned, rfl⟩ := Option.map_eq_some_iff.1 h
      have moves := moves_of_step step
      rw [List.isChain_cons] at chain
      intro i mem
      rcases List.mem_append.1 mem with mem | mem
      · exact holds.passed_in moves i mem
      · rw [List.append_cons]
        exact ih chain.2 (holds.move chain.1 moves) scanned i mem

/-! ## Walking over what was collected -/

theorem advance_of_follows {p : Position} {a c : Cell} {before after cells : List Cell}
    (chain : (a :: cells).IsChain Follows) (split : a :: cells = before ++ c :: after)
    (line : p.line = a.pos.line) (here : a.char ≠ '\n' → p = a.pos) :
    (p.advance (Cell.chars before)).line = c.pos.line ∧
      (c.char ≠ '\n' → p.advance (Cell.chars before) = c.pos) := by
  induction before generalizing p a cells with
  | nil =>
    cases split
    exact ⟨line, here⟩
  | cons b before ih =>
    rw [List.cons_append, List.cons.injEq] at split
    obtain ⟨rfl, split⟩ := split
    -- A walk that stood beside a newline is back in step after it.
    have same : p.after a.char = a.pos.after a.char := by
      by_cases newline : a.char = '\n'
      · simp [Position.after, newline, line]
      · rw [here newline]
    obtain ⟨d, more, next⟩ : ∃ d more, before ++ c :: after = d :: more := by
      cases before <;> exact ⟨_, _, rfl⟩
    subst split
    rw [next, List.isChain_cons_cons] at chain
    have walked := ih (p := a.pos.after a.char) chain.2 next.symm
    simp only [Cell.chars, List.map_cons, Position.advance_cons, same] at walked ⊢
    apply walked
    · rcases chain.1 with pos | ⟨-, line⟩
      · rw [pos]
      · exact line.symm
    · intro plain
      rcases chain.1 with pos | ⟨newline, -⟩
      · exact pos.symm
      · exact absurd newline plain

end SheetLint.Brace.Scan
