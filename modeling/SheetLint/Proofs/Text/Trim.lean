import Mathlib.Data.List.DropRight
import SheetLint.Important
import SheetLint.Position

namespace SheetLint.Text

variable {α : Type} {p : α → Bool}

theorem span_eq {xs rest : List α} (all : ∀ x ∈ xs, p x = true)
    (ends : ∀ x ∈ rest.head?, p x = false) :
    (xs ++ rest).takeWhile p = xs ∧ (xs ++ rest).dropWhile p = rest := by
  rw [List.takeWhile_append_of_pos all, List.dropWhile_append_of_pos all]
  cases rest with
  | nil => exact ⟨List.append_nil _, rfl⟩
  | cons x rest =>
    have other : ¬ p x = true := Bool.not_eq_true _ ▸ ends x rfl
    exact ⟨by rw [List.takeWhile_cons_of_neg other, List.append_nil], List.dropWhile_cons_of_neg other⟩

theorem dropEndWhile_isPrefix (xs : List α) : dropEndWhile p xs <+: xs := by
  rw [← List.reverse_suffix, dropEndWhile, List.reverse_reverse]
  exact List.dropWhile_suffix p

theorem trimWhile_isInfix (xs : List α) : trimWhile p xs <:+: xs :=
  (dropEndWhile_isPrefix _).isInfix.trans (List.dropWhile_suffix p).isInfix

theorem mem_dropWhile {a : α} (kept : p a = false) (xs : List α) :
    a ∈ xs.dropWhile p ↔ a ∈ xs := by
  induction xs with
  | nil => rfl
  | cons x xs ih =>
    by_cases dropped : p x = true
    · have : a ≠ x := by
        rintro rfl
        simp [kept] at dropped
      rw [List.dropWhile_cons_of_pos dropped, ih, List.mem_cons]
      simp [this]
    · rw [List.dropWhile_cons_of_neg dropped]

theorem mem_dropEndWhile {a : α} (kept : p a = false) (xs : List α) :
    a ∈ dropEndWhile p xs ↔ a ∈ xs := by
  rw [dropEndWhile, List.mem_reverse, mem_dropWhile kept, List.mem_reverse]

theorem mem_trimWhile {a : α} (kept : p a = false) (xs : List α) :
    a ∈ trimWhile p xs ↔ a ∈ xs := by
  rw [trimWhile, mem_dropEndWhile kept, mem_dropWhile kept]

theorem dropEndWhile_cons (a : α) (xs : List α) :
    dropEndWhile p (a :: xs) =
      if dropEndWhile p xs = [] ∧ p a = true then [] else a :: dropEndWhile p xs := by
  unfold dropEndWhile
  rw [List.reverse_cons, List.dropWhile_append]
  by_cases dropped : xs.reverse.dropWhile p = []
  · by_cases blank : p a = true <;> simp [dropped, blank]
  · simp [dropped]

theorem trimWhile_cons {a : α} (kept : p a = false) (xs : List α) :
    trimWhile p (a :: xs) = dropEndWhile p (a :: xs) := by
  rw [trimWhile, List.dropWhile_cons_of_neg (by simp [kept])]

theorem head?_dropEndWhile {a : α} (kept : p a = false) (xs : List α) :
    (dropEndWhile p (a :: xs)).head? = some a := by
  have mem : a ∈ dropEndWhile p (a :: xs) := (mem_dropEndWhile kept _).2 List.mem_cons_self
  obtain ⟨rest, h⟩ := dropEndWhile_isPrefix (p := p) (a :: xs)
  cases h' : dropEndWhile p (a :: xs) with
  | nil => simp [h'] at mem
  | cons b more =>
    rw [h'] at h
    cases h
    rfl

theorem head?_trimWhile {a : α} (kept : p a = false) (xs : List α) :
    (trimWhile p (a :: xs)).head? = some a := by
  rw [trimWhile_cons kept, head?_dropEndWhile kept]

theorem dropEndWhile_append_cons {a : α} (kept : p a = false) (xs ys : List α) :
    dropEndWhile p (xs ++ a :: ys) = xs ++ a :: dropEndWhile p ys := by
  induction xs with
  | nil => simp [dropEndWhile_cons, kept]
  | cons x xs ih => simp [dropEndWhile_cons, ih]

theorem trimWhile_append_cons {a : α} (kept : p a = false) (xs ys : List α) :
    trimWhile p (xs ++ a :: ys) = xs.dropWhile p ++ a :: dropEndWhile p ys := by
  have stays : (a :: ys).dropWhile p = a :: ys := List.dropWhile_cons_of_neg (by simp [kept])
  have left : (xs ++ a :: ys).dropWhile p = xs.dropWhile p ++ a :: ys := by
    rw [List.dropWhile_append, stays]
    split
    next empty => rw [List.isEmpty_iff.1 empty, List.nil_append]
    next => rfl
  rw [trimWhile, left, dropEndWhile_append_cons kept]

theorem filter_dropWhile {q : α → Bool} (apart : ∀ a, p a = true → q a = false) (xs : List α) :
    (xs.dropWhile p).filter q = xs.filter q := by
  induction xs with
  | nil => rfl
  | cons x xs ih =>
    by_cases dropped : p x = true
    · rw [List.dropWhile_cons_of_pos dropped, ih, List.filter_cons_of_neg (by simp [apart x dropped])]
    · rw [List.dropWhile_cons_of_neg dropped]

theorem filter_dropEndWhile {q : α → Bool} (apart : ∀ a, p a = true → q a = false) (xs : List α) :
    (dropEndWhile p xs).filter q = xs.filter q := by
  rw [dropEndWhile, List.filter_reverse, filter_dropWhile apart, ← List.filter_reverse,
    List.reverse_reverse]

theorem filter_trimWhile {q : α → Bool} (apart : ∀ a, p a = true → q a = false) (xs : List α) :
    (trimWhile p xs).filter q = xs.filter q := by
  rw [trimWhile, filter_dropEndWhile apart, filter_dropWhile apart]

theorem dropByteOrderMark_suffix (cs : List Char) : dropByteOrderMark cs <:+ cs := by
  cases cs with
  | nil => exact List.suffix_rfl
  | cons c cs =>
    rw [dropByteOrderMark]
    split
    · exact List.suffix_cons c cs
    · exact List.suffix_rfl

theorem dropByteOrderMark_of_bare {cs : List Char} (bare : cs.head? ≠ some '\uFEFF') :
    dropByteOrderMark cs = cs := by
  cases cs with
  | nil => rfl
  | cons c cs => rw [dropByteOrderMark, if_neg (by simpa using bare)]

theorem dropByteOrderMark_append {cs ds : List Char} (bare : cs = [] → ds.head? ≠ some '\uFEFF') :
    dropByteOrderMark (cs ++ ds) = dropByteOrderMark cs ++ ds := by
  cases cs with
  | nil => exact dropByteOrderMark_of_bare (bare rfl)
  | cons c cs =>
    rw [List.cons_append, dropByteOrderMark, dropByteOrderMark]
    split <;> rfl

theorem trimWhile_concat {a : α} (dropped : p a = true) (xs : List α) :
    trimWhile p (xs ++ [a]) = trimWhile p xs := by
  have ending (ys : List α) : dropEndWhile p (ys ++ [a]) = dropEndWhile p ys := by
    simp [dropEndWhile, dropped]
  rw [trimWhile, trimWhile, List.dropWhile_append]
  split
  next all =>
    rw [List.isEmpty_iff.1 all, List.dropWhile_cons_of_pos dropped]
    rfl
  next => exact ending _

theorem not_of_trimWhile_eq_cons {a : α} {xs ys : List α} (h : trimWhile p xs = a :: ys) :
    p a = false := by
  obtain ⟨rest, whole⟩ := dropEndWhile_isPrefix (p := p) (xs.dropWhile p)
  have first := List.head?_dropWhile_not p xs
  rw [trimWhile] at h
  rw [← whole, h] at first
  exact first

theorem dropEndWhile_append {xs ys : List α} (kept : dropEndWhile p ys ≠ []) :
    dropEndWhile p (xs ++ ys) = xs ++ dropEndWhile p ys := by
  rw [dropEndWhile, List.reverse_append, List.dropWhile_append, if_neg, List.reverse_append,
    List.reverse_reverse]
  · rfl
  · intro empty
    apply kept
    rw [dropEndWhile, List.isEmpty_iff.1 empty, List.reverse_nil]

theorem dropEndWhile_append_of_pos {xs ys : List α} (kept : ∀ a ∈ xs, p a = false)
    (dropped : ∀ a ∈ ys, p a = true) : dropEndWhile p (xs ++ ys) = xs := by
  induction xs with
  | nil =>
    rw [List.nil_append, dropEndWhile, List.reverse_eq_nil_iff, List.dropWhile_eq_nil_iff]
    exact fun a mem => dropped a (List.mem_reverse.1 mem)
  | cons a xs ih =>
    obtain ⟨first, kept⟩ := List.forall_mem_cons.1 kept
    rw [List.cons_append, dropEndWhile_cons, ih kept, if_neg (by simp [first])]

theorem dropEndWhile_idem (xs : List α) : dropEndWhile p (dropEndWhile p xs) = dropEndWhile p xs := by
  rw [dropEndWhile, dropEndWhile, List.reverse_reverse, List.dropWhile_idempotent]

theorem trimWhile_dropEndWhile (xs : List α) : trimWhile p (dropEndWhile p xs) = trimWhile p xs := by
  induction xs using List.reverseRecOn with
  | nil => rfl
  | append_singleton xs a ih =>
    by_cases dropped : p a = true
    · have shorter : dropEndWhile p (xs ++ [a]) = dropEndWhile p xs := by
        simp [dropEndWhile, dropped]
      rw [shorter, ih, trimWhile_concat dropped]
    · rw [dropEndWhile_append_cons (by simpa using dropped)]
      rfl

theorem trimWhile_of_isPrefix {xs ys : List α} (h : ys <+: trimWhile p xs) :
    trimWhile p ys = dropEndWhile p ys := by
  cases ys with
  | nil => rfl
  | cons a ys =>
    obtain ⟨more, whole⟩ := h
    exact trimWhile_cons (not_of_trimWhile_eq_cons whole.symm) ys

theorem trimWhile_idem (xs : List α) : trimWhile p (trimWhile p xs) = trimWhile p xs := by
  rw [trimWhile_of_isPrefix List.prefix_rfl, trimWhile, dropEndWhile_idem]

theorem chars_dropEndWhile (cells : List Cell) :
    Cell.chars (dropEndWhile Cell.isBlank cells) = trimEnd (Cell.chars cells) := by
  have blank : isBlank ∘ Cell.char = Cell.isBlank := rfl
  simp only [trimEnd, dropEndWhile, Cell.chars, ← List.map_reverse, List.dropWhile_map, blank]

theorem chars_trimWhile (cells : List Cell) :
    Cell.chars (trimWhile Cell.isBlank cells) = trim (Cell.chars cells) := by
  have blank : isBlank ∘ Cell.char = Cell.isBlank := rfl
  rw [trimWhile, chars_dropEndWhile]
  simp only [trim, trimWhile, trimEnd, Cell.chars, List.dropWhile_map, blank]

end SheetLint.Text

namespace SheetLint

theorem chars_append (cells more : List Cell) :
    Cell.chars (cells ++ more) = Cell.chars cells ++ Cell.chars more :=
  List.map_append

theorem chars_cons (c : Cell) (cells : List Cell) :
    Cell.chars (c :: cells) = c.char :: Cell.chars cells := rfl

theorem toList_text (cells : List Cell) : (Cell.text cells).toList = Cell.chars cells :=
  String.toList_ofList

theorem splitImportant_isPrefix (raw : List Char) : (splitImportant raw).1 <+: raw := by
  simp only [splitImportant]
  split
  · exact (Text.dropEndWhile_isPrefix _).trans <| List.take_prefix _ _
  · exact List.prefix_rfl

theorem eq_of_splitImportant {raw : List Char} (h : (splitImportant raw).2 = false) :
    (splitImportant raw).1 = raw := by
  simp only [splitImportant] at *
  split at h
  · cases h
  next plain => rw [if_neg plain]

theorem splitImportant_append (before : List Char) {flag : List Char}
    (same : Text.lowerAscii flag = importantFlag) :
    splitImportant (before ++ flag) = (Text.trimEnd before, true) := by
  have length : flag.length = importantFlag.length := by
    rw [← same, Text.lowerAscii, List.length_map]
  have cut : (before ++ flag).length - importantFlag.length = before.length := by
    rw [List.length_append, length, Nat.add_sub_cancel]
  simp only [splitImportant, cut, List.drop_left, List.take_left, same, if_true]

theorem splitImportant_of_not {raw : List Char}
    (unflagged : ∀ before flag, raw = before ++ flag → Text.lowerAscii flag ≠ importantFlag) :
    splitImportant raw = (raw, false) := by
  have other := unflagged (raw.take (raw.length - importantFlag.length))
    (raw.drop (raw.length - importantFlag.length)) (List.take_append_drop _ _).symm
  simp only [splitImportant, other, if_false]

theorem splitImportant_cases (raw : List Char) :
    splitImportant raw = (raw, false) ∨ ∃ before flag, raw = before ++ flag ∧
      Text.lowerAscii flag = importantFlag ∧ splitImportant raw = (Text.trimEnd before, true) := by
  by_cases flagged : ∃ before flag, raw = before ++ flag ∧ Text.lowerAscii flag = importantFlag
  · obtain ⟨before, flag, rfl, same⟩ := flagged
    exact .inr ⟨before, flag, rfl, same, splitImportant_append before same⟩
  · refine .inl (splitImportant_of_not ?_)
    intro before flag split same
    exact flagged ⟨before, flag, split, same⟩

theorem splitImportant_append_cons (before : List Char) {c : Char} (visible : Text.isBlank c = false)
    (other : c.toLower ∉ importantFlag) (after : List Char) :
    splitImportant (before ++ c :: after) =
      (before ++ c :: (splitImportant after).1, (splitImportant after).2) := by
  by_cases flagged : ∃ front flag, after = front ++ flag ∧ Text.lowerAscii flag = importantFlag
  · obtain ⟨front, flag, rfl, same⟩ := flagged
    rw [← List.cons_append, ← List.append_assoc, splitImportant_append _ same,
      splitImportant_append _ same, Text.trimEnd, Text.dropEndWhile_append_cons visible]
    rfl
  · have plain (front flag : List Char) (split : after = front ++ flag) :
        Text.lowerAscii flag ≠ importantFlag :=
      fun same => flagged ⟨front, flag, split, same⟩
    rw [splitImportant_of_not plain, splitImportant_of_not]
    intro front flag split same
    have inside (mem : c ∈ flag) : False := by
      rw [← same] at other
      exact other (List.mem_map_of_mem mem)
    rcases List.append_eq_append_iff.1 split with ⟨later, -, cut⟩ | ⟨later, -, cut⟩
    · cases later with
      | nil =>
        obtain rfl : c :: after = flag := cut
        exact inside List.mem_cons_self
      | cons d later =>
        cases cut
        exact plain later flag rfl same
    · exact inside (by simp [cut])

end SheetLint
