import SheetLint.Proofs.Text.Trim
import SheetLint.Tree

namespace SheetLint

namespace Text

def crlf (cs : List Char) : List Char :=
  cs.flatMap fun c => if c = '\n' then ['\r', c] else [c]

def withoutReturns (s : String) : String :=
  String.ofList (s.toList.filter (· != '\r'))

theorem crlf_cons (c : Char) (cs : List Char) :
    crlf (c :: cs) = (if c = '\n' then ['\r', c] else [c]) ++ crlf cs :=
  List.flatMap_cons

theorem dropByteOrderMark_crlf (cs : List Char) :
    dropByteOrderMark (crlf cs) = crlf (dropByteOrderMark cs) := by
  cases cs with
  | nil => rfl
  | cons c cs =>
    by_cases newline : c = '\n'
    · subst newline
      rfl
    · rw [crlf_cons, if_neg newline, List.singleton_append, dropByteOrderMark, dropByteOrderMark]
      split
      · rfl
      · rw [crlf_cons, if_neg newline, List.singleton_append]

end Text

/-! ## Trees -/

def Comment.withoutReturns (c : Comment) : Comment :=
  { c with text := Text.withoutReturns c.text }

def Declaration.withoutReturns (d : Declaration) : Declaration :=
  { d with prop := Text.withoutReturns d.prop, value := Text.withoutReturns d.value }

def Prelude.withoutReturns : Prelude → Prelude
  | .selector text => .selector (Text.withoutReturns text)
  | .atRule name params => .atRule (Text.withoutReturns name) (Text.withoutReturns params)

namespace Node

mutual

def withoutReturns : Node → Node
  | .comment c => .comment c.withoutReturns
  | .declaration d => .declaration d.withoutReturns
  | .statement prelude start => .statement prelude.withoutReturns start
  | .block prelude start opener nodes =>
    .block prelude.withoutReturns start opener (allWithoutReturns nodes)

def allWithoutReturns : List Node → List Node
  | [] => []
  | n :: ns => withoutReturns n :: allWithoutReturns ns

end

theorem allWithoutReturns_eq_map (ns : List Node) :
    allWithoutReturns ns = ns.map withoutReturns := by
  induction ns with
  | nil => rfl
  | cons n ns ih => rw [allWithoutReturns, ih, List.map_cons]

end Node

def Sheet.withoutReturns (s : Sheet) : Sheet :=
  ⟨Node.allWithoutReturns s.nodes⟩

/-! ## Related texts -/

/-- Whether the second text is the first with carriage returns before newlines, where the other
characters have kept their places. -/
inductive Returned : List Cell → List Cell → Prop
  | nil : Returned [] []
  | keep {cells more : List Cell} (c : Cell) (inline : c.char ≠ '\n') (plain : c.char ≠ '\r')
    (later : Returned cells more) : Returned (c :: cells) (c :: more)
  | newline {cells more : List Cell} (p q : Position) (later : Returned cells more) :
    Returned (⟨'\n', p⟩ :: cells) (⟨'\n', q⟩ :: more)
  | pair {cells more : List Cell} (p q r : Position) (later : Returned cells more) :
    Returned (⟨'\n', p⟩ :: cells) (⟨'\r', q⟩ :: ⟨'\n', r⟩ :: more)

theorem returned_crlf {cs : List Char} (plain : '\r' ∉ cs) (p : Position) :
    Returned (Cell.ofChars p cs) (Cell.ofChars p (Text.crlf cs)) := by
  induction cs generalizing p with
  | nil => exact .nil
  | cons c cs ih =>
    rw [List.mem_cons, not_or] at plain
    rw [Text.crlf_cons, Cell.ofChars_cons]
    by_cases newline : c = '\n'
    · subst newline
      have broken : (p.after '\r').after '\n' = p.after '\n' := rfl
      rw [if_pos rfl, List.cons_append, List.singleton_append, Cell.ofChars_cons, Cell.ofChars_cons,
        broken]
      exact .pair _ _ _ (ih plain.2 _)
    · rw [if_neg newline, List.singleton_append, Cell.ofChars_cons]
      exact .keep ⟨c, p⟩ newline (Ne.symm plain.1) (ih plain.2 _)

namespace Returned

variable {cells more : List Cell}

theorem append {cells' more' : List Cell} (h : Returned cells more) (h' : Returned cells' more') :
    Returned (cells ++ cells') (more ++ more') := by
  induction h with
  | nil => exact h'
  | keep c inline plain _ ih => exact .keep c inline plain ih
  | newline p q _ ih => exact .newline p q ih
  | pair p q r _ ih => exact .pair p q r ih

theorem eq_nil_iff (h : Returned cells more) : cells = [] ↔ more = [] := by
  cases h <;> simp

theorem cons_of_ne {c : Cell} (h : Returned (c :: cells) more) (inline : c.char ≠ '\n') :
    ∃ later, more = c :: later ∧ Returned cells later := by
  cases h with
  | keep _ _ _ later => exact ⟨_, rfl, later⟩
  | newline => exact absurd rfl inline
  | pair => exact absurd rfl inline

theorem filter_chars (h : Returned cells more) :
    (Cell.chars more).filter (· != '\r') = (Cell.chars cells).filter (· != '\r') := by
  unfold Cell.chars
  induction h with
  | nil => rfl
  | keep c inline plain _ ih => simp [ih, plain]
  | newline p q _ ih => simp [ih]
  | pair p q r _ ih => simp [ih]

theorem withoutReturns_text (h : Returned cells more) :
    Text.withoutReturns (Cell.text more) = Text.withoutReturns (Cell.text cells) := by
  unfold Text.withoutReturns Cell.text
  rw [String.toList_ofList, String.toList_ofList, h.filter_chars]

section Predicate

variable {p : Cell → Bool} {b : Bool}
  (alike : ∀ q : Position, p ⟨'\n', q⟩ = b ∧ p ⟨'\r', q⟩ = b)

include alike

theorem any (h : Returned cells more) : more.any p = cells.any p := by
  induction h with
  | nil => rfl
  | keep c inline plain _ ih => rw [List.any_cons, List.any_cons, ih]
  | newline q r _ ih => rw [List.any_cons, List.any_cons, ih, (alike q).1, (alike r).1]
  | pair q r s _ ih =>
    rw [List.any_cons, List.any_cons, List.any_cons, ih, (alike q).1, (alike r).2, (alike s).1,
      ← Bool.or_assoc, Bool.or_self]

theorem dropWhile (h : Returned cells more) : Returned (cells.dropWhile p) (more.dropWhile p) := by
  induction h with
  | nil => exact .nil
  | keep c inline plain later ih =>
    rw [List.dropWhile_cons, List.dropWhile_cons]
    split
    · exact ih
    · exact .keep c inline plain later
  | newline q r later ih =>
    rw [List.dropWhile_cons, List.dropWhile_cons, (alike q).1, (alike r).1]
    split
    · exact ih
    · exact .newline q r later
  | pair q r s later ih =>
    rw [List.dropWhile_cons, List.dropWhile_cons, List.dropWhile_cons, (alike q).1, (alike r).2,
      (alike s).1]
    split
    · exact ih
    · exact .pair q r s later

theorem takeWhile (h : Returned cells more) : Returned (cells.takeWhile p) (more.takeWhile p) := by
  induction h with
  | nil => exact .nil
  | keep c inline plain later ih =>
    rw [List.takeWhile_cons, List.takeWhile_cons]
    split
    · exact .keep c inline plain ih
    · exact .nil
  | newline q r later ih =>
    rw [List.takeWhile_cons, List.takeWhile_cons, (alike q).1, (alike r).1]
    split
    · exact .newline q r ih
    · exact .nil
  | pair q r s later ih =>
    rw [List.takeWhile_cons, List.takeWhile_cons, List.takeWhile_cons, (alike q).1, (alike r).2,
      (alike s).1]
    split
    · exact .pair q r s ih
    · exact .nil

theorem dropEndWhile (h : Returned cells more) :
    Returned (Text.dropEndWhile p cells) (Text.dropEndWhile p more) := by
  induction h with
  | nil => exact .nil
  | keep c inline plain _ ih =>
    simp only [Text.dropEndWhile_cons, ih.eq_nil_iff]
    split
    · exact .nil
    · exact .keep c inline plain ih
  | newline q r _ ih =>
    simp only [Text.dropEndWhile_cons, ih.eq_nil_iff, (alike q).1, (alike r).1]
    split
    · exact .nil
    · exact .newline q r ih
  | pair q r s _ ih =>
    simp only [Text.dropEndWhile_cons, ih.eq_nil_iff, (alike q).1, (alike r).2, (alike s).1]
    split
    next dropped => simpa [dropped] using .nil
    next => simpa using .pair q r s ih

theorem trimWhile (h : Returned cells more) :
    Returned (Text.trimWhile p cells) (Text.trimWhile p more) :=
  (h.dropWhile alike).dropEndWhile alike

end Predicate

theorem isEmpty_eq (h : Returned cells more) : more.isEmpty = cells.isEmpty := by
  cases h <;> rfl

theorem dropWhile_ne {c : Char} (inline : c ≠ '\n') (plain : c ≠ '\r') (h : Returned cells more) :
    cells.dropWhile (·.char != c) = [] ∧ more.dropWhile (·.char != c) = [] ∨
      ∃ d rest later, cells.dropWhile (·.char != c) = d :: rest ∧
        more.dropWhile (·.char != c) = d :: later ∧ d.char = c ∧ Returned rest later := by
  have dropped : Returned (cells.dropWhile (·.char != c)) (more.dropWhile (·.char != c)) := by
    apply h.dropWhile (b := true)
    intro q
    simp [inline.symm, plain.symm]
  have first := List.head?_dropWhile_not (fun d : Cell => d.char != c) cells
  cases rest : cells.dropWhile (·.char != c) with
  | nil =>
    rw [rest] at dropped
    exact .inl ⟨rfl, dropped.eq_nil_iff.1 rfl⟩
  | cons d rest' =>
    rw [rest] at dropped first
    have same : d.char = c := by simpa using first
    obtain ⟨later, split, next⟩ := dropped.cons_of_ne (same ▸ inline)
    exact .inr ⟨d, rest', later, rfl, split, same, next⟩

theorem blank (q : Position) : Cell.isBlank ⟨'\n', q⟩ = true ∧ Cell.isBlank ⟨'\r', q⟩ = true :=
  ⟨rfl, rfl⟩

/-! ## Closing flags -/

theorem eq_of_inline (h : Returned cells more) (inline : ∀ c ∈ cells, c.char ≠ '\n') :
    more = cells := by
  induction h with
  | nil => rfl
  | keep c _ _ _ ih => rw [ih fun d mem => inline d (.tail _ mem)]
  | newline => exact absurd rfl (inline _ List.mem_cons_self)
  | pair => exact absurd rfl (inline _ List.mem_cons_self)

theorem eq_of_inline' (h : Returned cells more) (inline : ∀ c ∈ more, c.char ≠ '\n') :
    more = cells := by
  induction h with
  | nil => rfl
  | keep c _ _ _ ih => rw [ih fun d mem => inline d (.tail _ mem)]
  | newline => exact absurd rfl (inline _ List.mem_cons_self)
  | pair => exact absurd rfl (inline _ (.tail _ List.mem_cons_self))

theorem exists_of_append {ending : List Cell} (h : Returned (cells ++ ending) more)
    (inline : ∀ c ∈ ending, c.char ≠ '\n') :
    ∃ before, more = before ++ ending ∧ Returned cells before := by
  induction cells generalizing more with
  | nil => exact ⟨[], h.eq_of_inline inline, .nil⟩
  | cons d cells ih =>
    cases h with
    | keep _ here plain later =>
      obtain ⟨before, rfl, same⟩ := ih later
      exact ⟨_, rfl, .keep d here plain same⟩
    | newline p q later =>
      obtain ⟨before, rfl, same⟩ := ih later
      exact ⟨_, rfl, .newline p q same⟩
    | pair p q r later =>
      obtain ⟨before, rfl, same⟩ := ih later
      exact ⟨_, rfl, .pair p q r same⟩

theorem suffix_of_suffix {ending : List Cell} (h : Returned cells more)
    (inline : ∀ c ∈ ending, c.char ≠ '\n' ∧ c.char ≠ '\r') (last : ending <:+ more) :
    ending <:+ cells := by
  induction h with
  | nil => exact last
  | keep c here plain later ih =>
    rcases List.suffix_cons_iff.1 last with rfl | last
    · exact ⟨[], (keep c here plain later).eq_of_inline' fun d mem => (inline d mem).1⟩
    · exact (ih last).trans (List.suffix_cons _ _)
  | newline p q later ih =>
    rcases List.suffix_cons_iff.1 last with rfl | last
    · exact absurd rfl (inline _ List.mem_cons_self).1
    · exact (ih last).trans (List.suffix_cons _ _)
  | pair p q r later ih =>
    rcases List.suffix_cons_iff.1 last with rfl | last
    · exact absurd rfl (inline _ List.mem_cons_self).2
    rcases List.suffix_cons_iff.1 last with rfl | last
    · exact absurd rfl (inline _ List.mem_cons_self).1
    · exact (ih last).trans (List.suffix_cons _ _)

theorem inline_of_flag {flag : List Cell} (same : Text.lowerAscii (Cell.chars flag) = importantFlag) :
    ∀ c ∈ flag, c.char ≠ '\n' ∧ c.char ≠ '\r' := by
  intro c mem
  have lower : c.char.toLower ∈ importantFlag := by
    rw [← same]
    exact List.mem_map_of_mem (List.mem_map_of_mem mem)
  constructor
  · intro newline
    rw [newline] at lower
    exact absurd lower (by decide)
  · intro plain
    rw [plain] at lower
    exact absurd lower (by decide)

theorem splitImportant (h : Returned cells more) :
    (splitImportant (Cell.chars more)).2 = (splitImportant (Cell.chars cells)).2 ∧
      Text.withoutReturns (String.ofList (splitImportant (Cell.chars more)).1) =
        Text.withoutReturns (String.ofList (splitImportant (Cell.chars cells)).1) := by
  by_cases flagged : ∃ before flag, cells = before ++ flag ∧
      Text.lowerAscii (Cell.chars flag) = importantFlag
  · obtain ⟨before, flag, rfl, same⟩ := flagged
    obtain ⟨before', rfl, later⟩ := h.exists_of_append fun c mem => (inline_of_flag same c mem).1
    rw [chars_append, chars_append, splitImportant_append _ same, splitImportant_append _ same,
      ← Text.chars_dropEndWhile, ← Text.chars_dropEndWhile]
    exact ⟨rfl, (later.dropEndWhile blank).withoutReturns_text⟩
  · have unflagged : ∀ before flag, Cell.chars cells = before ++ flag →
        Text.lowerAscii flag ≠ importantFlag := by
      intro before flag split same
      obtain ⟨cells', flag', rfl, -, rfl⟩ := List.map_eq_append_iff.1 split
      exact flagged ⟨cells', flag', rfl, same⟩
    have unflagged' : ∀ before flag, Cell.chars more = before ++ flag →
        Text.lowerAscii flag ≠ importantFlag := by
      intro before flag split same
      obtain ⟨cells', flag', rfl, -, rfl⟩ := List.map_eq_append_iff.1 split
      obtain ⟨before, whole⟩ :=
        h.suffix_of_suffix (inline_of_flag same) (List.suffix_append cells' flag')
      exact flagged ⟨before, flag', whole.symm, same⟩
    rw [splitImportant_of_not unflagged, splitImportant_of_not unflagged']
    exact ⟨rfl, h.withoutReturns_text⟩

end Returned

end SheetLint
