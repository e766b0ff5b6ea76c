import Mathlib.Data.List.Chain
import SheetLint.Declaration

namespace SheetLint

namespace Position

def Before (p q : Position) : Prop :=
  p.line < q.line ∨ p.line = q.line ∧ p.column < q.column

theorem Before.trans {p q r : Position} (h : p.Before q) (h' : q.Before r) : p.Before r := by
  unfold Before at *
  omega

theorem Before.ne {p q : Position} (h : p.Before q) : p ≠ q := by
  rintro rfl
  simp [Before] at h

theorem before_after (p : Position) (c : Char) : p.Before (p.after c) := by
  unfold after Before
  split
  · exact .inl (Nat.lt_succ_self _)
  · exact .inr ⟨rfl, Nat.lt_succ_self _⟩

theorem before_advance (p : Position) (c : Char) (cs : List Char) :
    p.Before (p.advance (c :: cs)) := by
  induction cs generalizing p c with
  | nil => exact before_after p c
  | cons d cs ih => exact (before_after p c).trans (ih (p.after c) d)

theorem before_advance_of_ne_nil {cs : List Char} (nonempty : cs ≠ []) (p : Position) :
    p.Before (p.advance cs) := by
  cases cs with
  | nil => exact absurd rfl nonempty
  | cons c cs => exact before_advance p c cs

theorem after_line_of_ne {p : Position} {c : Char} (h : c ≠ '\n') : (p.after c).line = p.line := by
  simp [after, h]

theorem advance_of_not_mem {cs : List Char} (plain : '\n' ∉ cs) (p : Position) :
    p.advance cs = ⟨p.line, p.column + cs.length⟩ := by
  induction cs generalizing p with
  | nil => rfl
  | cons c cs ih =>
    simp only [List.mem_cons, not_or] at plain
    rw [advance_cons, ih plain.2, after, if_neg (Ne.symm plain.1),
      List.length_cons, Nat.add_assoc, Nat.add_comm 1]

end Position

/-- The character at a place of a text. Newlines end their lines and stand in none. -/
def charAt? (text : List Char) : Position → Option Char
  | ⟨line + 1, column + 1⟩ => ((text.splitOn '\n')[line]?).bind (·[column]?)
  | _ => none

theorem ofChars_append (p : Position) (cs ds : List Char) :
    Cell.ofChars p (cs ++ ds) = Cell.ofChars p cs ++ Cell.ofChars (p.advance cs) ds := by
  induction cs generalizing p with
  | nil => rfl
  | cons c cs ih => rw [List.cons_append, Cell.ofChars_cons, ih, Cell.ofChars_cons]; rfl

theorem mem_ofChars {p : Position} {cs : List Char} {c : Cell} (h : c ∈ Cell.ofChars p cs) :
    ∃ before after, cs = before ++ c.char :: after ∧ c.pos = p.advance before := by
  induction cs generalizing p with
  | nil => simp at h
  | cons d cs ih =>
    rw [Cell.ofChars_cons, List.mem_cons] at h
    rcases h with rfl | h
    · exact ⟨[], cs, rfl, rfl⟩
    · obtain ⟨before, after, rfl, pos⟩ := ih h
      exact ⟨d :: before, after, rfl, pos⟩

theorem advance_eq_lookup {p : Position} {c : Char} (hc : c ≠ '\n') (before after : List Char) :
    ∃ i j row, p.advance before = ⟨p.line + i, (if i = 0 then p.column else 1) + j⟩ ∧
      ((before ++ c :: after).splitOn '\n')[i]? = some row ∧ row[j]? = some c := by
  induction before generalizing p with
  | nil =>
    obtain ⟨row, rows, split⟩ := List.exists_cons_of_ne_nil (List.splitOn_ne_nil '\n' after)
    refine ⟨0, 0, c :: row, rfl, ?_, rfl⟩
    simp [List.splitOn_cons_eq_if_modifyHead, hc, split]
  | cons d before ih =>
    obtain ⟨i, j, row, reached, found, char⟩ := ih (p := p.after d)
    rw [List.cons_append, List.splitOn_cons_eq_if_modifyHead, Position.advance_cons, reached]
    by_cases newline : d = '\n'
    · refine ⟨i + 1, j, row, ?_, by simpa [newline] using found, char⟩
      simp [newline, Position.after, Nat.add_assoc, Nat.add_comm 1]
    · cases i with
      | zero =>
        refine ⟨0, j + 1, d :: row, ?_, ?_, char⟩
        · simp [newline, Position.after, Nat.add_assoc, Nat.add_comm 1]
        · cases split : (before ++ c :: after).splitOn '\n' with
          | nil => simp [split] at found
          | cons first rows =>
            rw [split] at found
            simpa [newline] using found
      | succ i =>
        refine ⟨i + 1, j, row, ?_, ?_, char⟩
        · simp [newline, Position.after]
        · cases split : (before ++ c :: after).splitOn '\n' with
          | nil => simp [split] at found
          | cons first rows =>
            rw [split] at found
            simpa [newline] using found

theorem charAt?_of_mem {text : List Char} {c : Cell} (mem : c ∈ Cell.ofChars .start text)
    (hc : c.char ≠ '\n') : charAt? text c.pos = some c.char := by
  obtain ⟨before, after, rfl, pos⟩ := mem_ofChars mem
  obtain ⟨i, j, row, reached, found, char⟩ := advance_eq_lookup (p := .start) hc before after
  rw [pos, reached]
  by_cases first : i = 0
  · subst first
    simp [Position.start, charAt?, Nat.add_comm 1, found, char]
  · simp [Position.start, charAt?, Nat.add_comm 1, first, found, char]

theorem split_of_suffix {p : Position} {cs : List Char} {c : Cell} {rest : List Cell}
    (h : c :: rest <:+ Cell.ofChars p cs) :
    ∃ before, cs = before ++ c.char :: Cell.chars rest ∧ c.pos = p.advance before := by
  induction cs generalizing p with
  | nil => simp at h
  | cons d cs ih =>
    rw [Cell.ofChars_cons, List.suffix_cons_iff] at h
    rcases h with same | h
    · cases same
      exact ⟨[], by rw [Cell.chars_ofChars]; rfl, rfl⟩
    · obtain ⟨before, rfl, pos⟩ := ih h
      exact ⟨d :: before, rfl, pos⟩

theorem ofChars_before {p : Position} {cs : List Char} {c : Cell} (h : c ∈ Cell.ofChars p cs) :
    c.pos.Before (p.advance cs) := by
  obtain ⟨before, after, rfl, pos⟩ := mem_ofChars h
  rw [pos, Position.advance_append]
  exact Position.before_advance _ _ _

theorem ofChars_pairwise (p : Position) (cs : List Char) :
    (Cell.ofChars p cs).Pairwise fun a b => a.pos.Before b.pos := by
  induction cs generalizing p with
  | nil => exact .nil
  | cons c cs ih =>
    rw [Cell.ofChars_cons, List.pairwise_cons]
    refine ⟨?_, ih (p.after c)⟩
    intro d mem
    obtain ⟨before, after, -, pos⟩ := mem_ofChars mem
    rw [pos]
    exact Position.before_advance p c before

theorem ofChars_chain (p : Position) (cs : List Char) :
    (Cell.ofChars p cs).IsChain fun a b => b.pos = a.pos.after a.char := by
  induction cs generalizing p with
  | nil => exact .nil
  | cons c cs ih =>
    rw [Cell.ofChars_cons, List.isChain_cons]
    refine ⟨?_, ih (p.after c)⟩
    intro d head
    cases cs with
    | nil => simp at head
    | cons e cs =>
      rw [Cell.ofChars_cons, List.head?_cons, Option.mem_some_iff] at head
      rw [← head]

/-! ## Offsets into a value -/

theorem utf8ByteSize_ofList_cons (c : Char) (cs : List Char) :
    (String.ofList (c :: cs)).utf8ByteSize = c.utf8Size + (String.ofList cs).utf8ByteSize := by
  rw [String.ofList_cons, String.utf8ByteSize_append, String.utf8ByteSize_singleton]

theorem takeBytes_append (before after : List Char) :
    Text.takeBytes (String.ofList before).utf8ByteSize (before ++ after) = some before := by
  induction before with
  | nil => cases after <;> rfl
  | cons c before ih =>
    rw [utf8ByteSize_ofList_cons]
    obtain ⟨n, size⟩ := Nat.exists_eq_succ_of_ne_zero c.utf8Size_pos.ne'
    rw [size, Nat.succ_add, List.cons_append, Text.takeBytes, size, if_pos (by omega)]
    rw [show n + (String.ofList before).utf8ByteSize + 1 - n.succ =
      (String.ofList before).utf8ByteSize by omega, ih]
    rfl

def Declaration.CharAt (d : Declaration) (offset : Nat) (c : Char) : Prop :=
  ∃ k, d.value.toList[k]? = some c ∧
    offset = (String.ofList (d.value.toList.take k)).utf8ByteSize

def Declaration.Increasing (d : Declaration) : Prop :=
  ∀ i j b c, d.CharAt i b → d.CharAt j c → b ≠ '\n' → c ≠ '\n' → i < j →
    (d.valuePosition i).Before (d.valuePosition j)

theorem Declaration.charAt_of_split {d : Declaration} {before after : List Char} {c : Char}
    (h : d.value.toList = before ++ c :: after) :
    d.CharAt (String.ofList before).utf8ByteSize c :=
  ⟨before.length, by simp [h], by simp [h]⟩

theorem Declaration.CharAt.split {d : Declaration} {offset : Nat} {c : Char}
    (h : d.CharAt offset c) : ∃ before after, d.value.toList = before ++ c :: after ∧
      offset = (String.ofList before).utf8ByteSize := by
  obtain ⟨k, char, rfl⟩ := h
  obtain ⟨within, rfl⟩ := List.getElem?_eq_some_iff.1 char
  refine ⟨d.value.toList.take k, d.value.toList.drop (k + 1), ?_, rfl⟩
  rw [← List.drop_eq_getElem_cons within, List.take_append_drop]

theorem utf8ByteSize_ofList_append (cs ds : List Char) :
    (String.ofList (cs ++ ds)).utf8ByteSize =
      (String.ofList cs).utf8ByteSize + (String.ofList ds).utf8ByteSize := by
  rw [String.ofList_append, String.utf8ByteSize_append]

theorem utf8ByteSize_ofList_concat (cs : List Char) (c : Char) :
    (String.ofList (cs ++ [c])).utf8ByteSize = (String.ofList cs).utf8ByteSize + c.utf8Size := by
  rw [utf8ByteSize_ofList_append, utf8ByteSize_ofList_cons]
  rfl

theorem utf8ByteSize_ofList_of_ascii {cs : List Char} (ascii : ∀ c ∈ cs, c.utf8Size = 1) :
    (String.ofList cs).utf8ByteSize = cs.length := by
  induction cs with
  | nil => rfl
  | cons c cs ih =>
    rw [utf8ByteSize_ofList_cons, ascii c List.mem_cons_self,
      ih fun d mem => ascii d (.tail _ mem), List.length_cons, Nat.add_comm]

theorem Declaration.valuePosition_eq {d : Declaration} {before after : List Char}
    (h : d.value.toList = before ++ after) :
    d.valuePosition (String.ofList before).utf8ByteSize = d.valueStart.advance before := by
  have within : (String.ofList before).utf8ByteSize ≤ d.value.utf8ByteSize := by
    rw [← String.ofList_toList (s := d.value), h, String.ofList_append, String.utf8ByteSize_append]
    exact Nat.le_add_right _ _
  rw [valuePosition, Nat.min_eq_left within, h, takeBytes_append]

end SheetLint
