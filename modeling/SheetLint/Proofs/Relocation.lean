import SheetLint.ParseError
import SheetLint.Proofs.Source
import SheetLint.Tree

namespace SheetLint

def Position.moved (origin p : Position) : Position :=
  ⟨p.line + (origin.line - 1), if p.line = 1 then p.column + (origin.column - 1) else p.column⟩

section Relocate

variable (f : Position → Position)

def Cell.relocate (c : Cell) : Cell :=
  ⟨c.char, f c.pos⟩

def ParseError.relocate (e : ParseError) : ParseError :=
  ⟨e.cause, f e.pos⟩

def Comment.relocate (c : Comment) : Comment :=
  { c with start := f c.start }

def Declaration.relocate (d : Declaration) : Declaration :=
  { d with start := f d.start, valueStart := f d.valueStart }

end Relocate

namespace Node

variable (g : Comment → Comment) (f : Position → Position)

mutual

def change : Node → Node
  | .comment c => .comment (g c)
  | .declaration d => .declaration (d.relocate f)
  | .statement prelude start => .statement prelude (f start)
  | .block prelude start opener nodes =>
    .block prelude (f start) (f opener) (changeAll nodes)

def changeAll : List Node → List Node
  | [] => []
  | n :: ns => change n :: changeAll ns

end

theorem changeAll_eq_map (ns : List Node) : changeAll g f ns = ns.map (change g f) := by
  induction ns with
  | nil => rfl
  | cons n ns ih => rw [changeAll, ih, List.map_cons]

def relocate : Node → Node :=
  change (Comment.relocate f) f

end Node

namespace Position

theorem moved_start {origin : Position} (line : 1 ≤ origin.line) (column : 1 ≤ origin.column) :
    origin.moved .start = origin := by
  simp only [moved, start, if_true, Nat.add_sub_cancel' line, Nat.add_sub_cancel' column]

theorem moved_after {p : Position} (line : 1 ≤ p.line) (origin : Position) (c : Char) :
    origin.moved (p.after c) = (origin.moved p).after c := by
  unfold after
  split
  · simp only [moved, Nat.add_right_comm _ 1, mk.injEq, true_and]
    rw [if_neg (by omega)]
  · simp only [moved]
    split <;> simp only [Nat.add_right_comm _ 1]

theorem moved_column (origin p : Position) :
    origin.moved ⟨p.line, p.column + 1⟩ = ⟨(origin.moved p).line, (origin.moved p).column + 1⟩ := by
  simp only [moved]
  split <;> simp only [Nat.add_right_comm _ 1]

theorem line_le_after (p : Position) (c : Char) : p.line ≤ (p.after c).line := by
  unfold after
  split
  · exact Nat.le_succ _
  · exact Nat.le_refl _

theorem pos_advance {p : Position} (line : 1 ≤ p.line) (column : 1 ≤ p.column) (cs : List Char) :
    1 ≤ (p.advance cs).line ∧ 1 ≤ (p.advance cs).column := by
  induction cs generalizing p with
  | nil => exact ⟨line, column⟩
  | cons c cs ih =>
    rw [advance_cons]
    apply ih (line.trans (line_le_after p c))
    unfold after
    split
    · exact Nat.le_refl 1
    · exact Nat.le_add_left 1 _

end Position

theorem ofChars_relocate {p : Position} (line : 1 ≤ p.line) (origin : Position) (cs : List Char) :
    Cell.ofChars (origin.moved p) cs = (Cell.ofChars p cs).map (Cell.relocate origin.moved) := by
  induction cs generalizing p with
  | nil => rfl
  | cons c cs ih =>
    rw [Cell.ofChars_cons, Cell.ofChars_cons, List.map_cons,
      ← ih (line.trans (Position.line_le_after p c)), Position.moved_after line]
    rfl

theorem ofChars_moved (before cs : List Char) :
    Cell.ofChars (Position.start.advance before) cs =
      (Cell.ofChars .start cs).map (Cell.relocate (Position.start.advance before).moved) := by
  obtain ⟨line, column⟩ := Position.pos_advance (p := .start) (Nat.le_refl 1) (Nat.le_refl 1) before
  rw [← ofChars_relocate (p := .start) (Nat.le_refl 1), Position.moved_start line column]

end SheetLint
