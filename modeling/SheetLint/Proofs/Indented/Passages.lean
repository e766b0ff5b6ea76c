import SheetLint.Proofs.Indented.Values

namespace SheetLint

def Text.visible (cs : List Char) : List Char :=
  cs.filter fun c => !isBlank c

namespace Text

@[simp]
theorem visible_nil : visible [] = [] := rfl

theorem visible_append (cs ds : List Char) : visible (cs ++ ds) = visible cs ++ visible ds :=
  List.filter_append cs ds

theorem visible_cons (c : Char) (cs : List Char) : visible (c :: cs) = visible [c] ++ visible cs :=
  visible_append [c] cs

theorem visible_newline (cs : List Char) : visible ('\n' :: cs) = visible cs := rfl

theorem visible_trim (cs : List Char) : visible (trim cs) = visible cs :=
  filter_trimWhile (fun c blank => by simp [blank]) cs

theorem visible_trimEnd (cs : List Char) : visible (trimEnd cs) = visible cs :=
  filter_dropEndWhile (fun c blank => by simp [blank]) cs

end Text

namespace Indented

open Text (visible visible_append visible_cons visible_newline)

/-! ## Lines -/

theorem visible_dropWhile_isIndent (cs : List Char) : visible (cs.dropWhile isIndent) = visible cs := by
  apply Text.filter_dropWhile
  intro c indents
  simp only [isIndent, Bool.or_eq_true, beq_iff_eq] at indents
  rcases indents with rfl | rfl <;> rfl

theorem visible_dropReturn (row : List Char) : visible (dropReturn row) = visible row := by
  unfold dropReturn
  split
  next returned =>
    have whole := List.dropLast_append_getLast? '\r' returned
    conv_rhs => rw [← whole, visible_append]
    simp [visible, Text.isBlank]
  next => rfl

theorem visible_splitLines (text : List Char) : (splitLines text).flatMap visible = visible text := by
  induction text with
  | nil => rfl
  | cons c cs ih =>
    rw [splitLines_cons, visible_cons, ← ih]
    split
    next newline =>
      rw [newline]
      rfl
    next =>
      cases rows : splitLines cs with
      | nil =>
        rw [splitLines_eq_splitOn] at rows
        exact absurd rows (List.splitOn_ne_nil '\n' cs)
      | cons row rows =>
        rw [List.modifyHead_cons, List.flatMap_cons, List.flatMap_cons, visible_cons, List.append_assoc]

theorem visible_linesOf (text : List Char) :
    ((linesOf text).flatMap fun line => visible line.chars) = visible text := by
  rw [← visible_splitLines, linesOf, List.flatMap_map]
  simp only [visible_dropReturn]
  conv_rhs => rw [← List.zipIdx_map_fst 1 (splitLines text), List.flatMap_map]

/-! ## Entries with the lines that they take up -/

/-- An entry and the lines after its first that its comment takes up, if it is one. -/
structure Passage where
  entry : Entry
  further : List Line

namespace Passage

def below (p : Passage) : List Char :=
  p.further.flatMap fun line => '\n' :: line.chars

structure Of (p : Passage) (line : Line) (rest : List Line) : Prop where
  origin : p.entry.From line
  kind : kindOf (Text.trimEnd (line.chars.dropWhile isIndent)) p.entry.start (p.further ++ rest) =
    .ok (p.entry.kind, rest)

theorem visible_below (p : Passage) :
    visible p.below = p.further.flatMap fun line => visible line.chars := by
  rw [below, visible, List.filter_flatMap]
  rfl

end Passage

inductive Covers : List Line → List Passage → Prop
  | nil : Covers [] []
  | blank {line : Line} {lines : List Line} {ps : List Passage} (blank : visible line.chars = [])
      (more : Covers lines ps) : Covers (line :: lines) ps
  | passage {p : Passage} {line : Line} {rest : List Line} {ps : List Passage} (here : p.Of line rest)
      (more : Covers rest ps) : Covers (line :: (p.further ++ rest)) (p :: ps)

theorem Covers.visible_eq {lines : List Line} {ps : List Passage} (h : Covers lines ps) :
    (lines.flatMap fun line => visible line.chars) =
      ps.flatMap fun p => visible p.entry.raw ++ visible p.below := by
  induction h with
  | nil => rfl
  | blank blank more ih => rw [List.flatMap_cons, blank, List.nil_append, ih]
  | passage here more ih =>
    rw [List.flatMap_cons, List.flatMap_append, ih, List.flatMap_cons, Passage.visible_below,
      here.origin.raw, List.append_assoc]

theorem exists_passages (used : Option Char) (lines : List Line) :
    ∀ es, entriesOf used lines = .ok es → ∃ ps, Covers lines ps ∧ ps.map Passage.entry = es := by
  fun_induction entriesOf used lines with
  | case1 =>
    intro es h
    cases h
    exact ⟨[], .nil, rfl⟩
  | case2 used line lines content blank ih =>
    intro es h
    obtain ⟨ps, covers, rfl⟩ := ih es h
    refine ⟨ps, .blank ?_ covers, rfl⟩
    have empty : Text.trimEnd (line.chars.dropWhile isIndent) = [] := List.isEmpty_iff.1 blank
    rw [← visible_dropWhile_isIndent, ← Text.visible_trimEnd, empty, Text.visible_nil]
  | case3 =>
    intro es h
    cases h
  | case4 used line lines indent content start visible uniform kind rest read ih =>
    intro es h
    obtain ⟨more, later, rfl⟩ := map_eq_ok_iff.1 h
    obtain ⟨ps, covers, rfl⟩ := ih more later
    obtain ⟨further, rfl⟩ : rest <:+ lines := suffix_of_kindOf read
    let p : Passage := ⟨⟨indent.length, start, line.chars, kind⟩, further⟩
    have here : p.Of line rest := ⟨⟨rfl, rfl, rfl, _, rest, read⟩, read⟩
    exact ⟨p :: ps, .passage here covers, rfl⟩
  | case5 =>
    intro es h
    cases h

end Indented

end SheetLint
