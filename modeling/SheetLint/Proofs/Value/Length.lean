import Mathlib.Data.List.TakeWhile
import SheetLint.Proofs.Text.Trim
import SheetLint.Rule.LengthZeroNoUnit

namespace SheetLint.Rule

def units : List String :=
  ["em", "ex", "ch", "rem", "vh", "vw", "vmin", "vmax", "cm", "mm", "q", "in", "pt", "pc", "px"]

structure Length where
  sign : List Char
  whole : List Char
  fraction : Option (List Char)
  unit : List Char
  signs : sign ∈ [[], ['+'], ['-']]
  decimal : ∀ c ∈ whole ++ fraction.getD [], c.isDigit = true
  nonempty : whole ++ fraction.getD [] ≠ []
  known : ∃ u ∈ units, Text.eqIgnoringCase (String.ofList unit) u = true

namespace Length

def decimals (l : Length) : List Char :=
  l.fraction.getD []

def digits (l : Length) : List Char :=
  l.whole ++ l.decimals

def pointed (l : Length) : List Char :=
  match l.fraction with
  | none => []
  | some ds => '.' :: ds

def number (l : Length) : List Char :=
  l.sign ++ (l.whole ++ l.pointed)

def text (l : Length) : List Char :=
  l.number ++ l.unit

end Length

/-! ## The characters of a length -/

theorem isAlpha_iff {c : Char} : c.isAlpha = true ↔
    (65 ≤ c.val.toNat ∧ c.val.toNat ≤ 90) ∨ (97 ≤ c.val.toNat ∧ c.val.toNat ≤ 122) := by
  show (decide (c.val ≥ 65 ∧ c.val ≤ 90) || (decide (c.val ≥ 97) && decide (c.val ≤ 122))) = true ↔ _
  simp only [Bool.or_eq_true, Bool.and_eq_true, decide_eq_true_eq, UInt32.le_iff_toNat_le, ge_iff_le]
  exact Iff.rfl

theorem isDigit_iff {c : Char} : c.isDigit = true ↔ 48 ≤ c.val.toNat ∧ c.val.toNat ≤ 57 := by
  show (decide (c.val ≥ 48) && decide (c.val ≤ 57)) = true ↔ _
  simp only [Bool.and_eq_true, decide_eq_true_eq, UInt32.le_iff_toNat_le, ge_iff_le]
  exact Iff.rfl

theorem utf8Size_of_isDigit {c : Char} (digit : c.isDigit = true) : c.utf8Size = 1 := by
  have small : c.val.toNat ≤ 127 := Nat.le_trans (isDigit_iff.1 digit).2 (by omega)
  exact Char.utf8Size_eq_one_iff.2 small

theorem isAlpha_of_toLower {c : Char} (lower : c.toLower.isAlpha = true) : c.isAlpha = true := by
  unfold Char.toLower at lower
  split at lower
  next upper => exact isAlpha_iff.2 (.inl upper)
  next => exact lower

theorem not_isAlpha_of_isDigit {c : Char} (digit : c.isDigit = true) : c.isAlpha = false := by
  have range := isDigit_iff.1 digit
  apply Bool.eq_false_iff.2
  rw [Ne, isAlpha_iff]
  omega

namespace Length

theorem unit_ne_nil (l : Length) : l.unit ≠ [] := by
  obtain ⟨u, mem, same⟩ := l.known
  have visible : ∀ u ∈ units, u.toList ≠ [] := by decide
  rw [Text.eqIgnoringCase, String.toList_ofList, beq_iff_eq] at same
  intro none
  rw [none] at same
  exact visible u mem (List.map_eq_nil_iff.1 same.symm)

theorem isAlpha_of_mem_unit (l : Length) {c : Char} (mem : c ∈ l.unit) : c.isAlpha = true := by
  obtain ⟨u, among, same⟩ := l.known
  have alpha : units.all (fun u => (Text.lowerAscii u.toList).all Char.isAlpha) = true := rfl
  rw [Text.eqIgnoringCase, String.toList_ofList, beq_iff_eq] at same
  have lower := List.all_eq_true.1 (List.all_eq_true.1 alpha u among)
  rw [← same] at lower
  exact isAlpha_of_toLower (lower _ (List.mem_map_of_mem mem))

theorem isDigit_of_mem_whole (l : Length) {c : Char} (mem : c ∈ l.whole) : c.isDigit = true :=
  l.decimal c (List.mem_append_left _ mem)

theorem isDigit_of_mem_decimals (l : Length) {c : Char} (mem : c ∈ l.decimals) : c.isDigit = true :=
  l.decimal c (List.mem_append_right _ mem)

theorem mem_unsigned {l : Length} {c : Char} (mem : c ∈ l.whole ++ l.pointed) :
    c.isDigit = true ∨ c = '.' := by
  rcases List.mem_append.1 mem with mem | mem
  · exact .inl (l.isDigit_of_mem_whole mem)
  · have decimal : ∀ c ∈ l.decimals, c.isDigit = true := fun _ => l.isDigit_of_mem_decimals
    unfold pointed at mem
    unfold decimals at decimal
    split at mem
    next => cases mem
    next ds some =>
      rw [some, Option.getD_some] at decimal
      rcases List.mem_cons.1 mem with point | digit
      · exact .inr point
      · exact .inl (decimal c digit)

theorem mem_number {l : Length} {c : Char} (mem : c ∈ l.number) :
    c.isDigit = true ∨ c = '.' ∨ c = '+' ∨ c = '-' := by
  rcases List.mem_append.1 mem with mem | mem
  · have signs := l.signs
    simp only [List.mem_cons, List.not_mem_nil, or_false] at signs
    rcases signs with none | plus | minus
    · rw [none] at mem
      cases mem
    · rw [plus] at mem
      exact .inr (.inr (.inl (List.mem_singleton.1 mem)))
    · rw [minus] at mem
      exact .inr (.inr (.inr (List.mem_singleton.1 mem)))
  · rcases mem_unsigned mem with digit | point
    · exact .inl digit
    · exact .inr (.inl point)

theorem ascii_number (l : Length) : ∀ c ∈ l.number, c.utf8Size = 1 := by
  intro c mem
  rcases mem_number mem with digit | rfl | rfl | rfl
  · exact utf8Size_of_isDigit digit
  · rfl
  · rfl
  · rfl

theorem not_isAlpha_of_mem_number (l : Length) {c : Char} (mem : c ∈ l.number) : c.isAlpha = false := by
  rcases mem_number mem with digit | rfl | rfl | rfl
  · exact not_isAlpha_of_isDigit digit
  · rfl
  · rfl
  · rfl

/-! ## Reading -/

theorem text_eq (l : Length) : l.text = l.sign ++ (l.whole ++ (l.pointed ++ l.unit)) := by
  rw [text, number, List.append_assoc, List.append_assoc]

theorem splitSign_text (l : Length) :
    splitSign l.text = (l.sign.length, l.whole ++ (l.pointed ++ l.unit)) := by
  have unsigned : splitSign (l.whole ++ (l.pointed ++ l.unit)) =
      (0, l.whole ++ (l.pointed ++ l.unit)) := by
    have plain : ∀ c ∈ l.whole ++ (l.pointed ++ l.unit), ¬(c = '+' ∨ c = '-') := by
      rw [← List.append_assoc]
      intro c mem signed
      rcases List.mem_append.1 mem with mem | mem
      · have other := mem_unsigned mem
        rcases signed with rfl | rfl <;> simp at other
      · have alpha := l.isAlpha_of_mem_unit mem
        rcases signed with rfl | rfl <;> cases alpha
    cases some : l.whole ++ (l.pointed ++ l.unit) with
    | nil => rfl
    | cons c cs => exact if_neg (plain c (some ▸ List.mem_cons_self))
  rw [text_eq]
  have signs := l.signs
  simp only [List.mem_cons, List.not_mem_nil, or_false] at signs
  rcases signs with none | plus | minus
  · rw [none]
    exact unsigned
  · rw [plus]
    rfl
  · rw [minus]
    rfl

theorem splitNumber?_text (l : Length) :
    splitNumber? l.text = some (⟨l.whole, l.decimals, l.number.length⟩, l.unit) := by
  have ends : ∀ c ∈ l.unit.head?, c.isDigit = false := by
    intro c first
    have alpha := l.isAlpha_of_mem_unit (List.mem_of_mem_head? first)
    apply Bool.eq_false_iff.2
    intro digit
    rw [not_isAlpha_of_isDigit digit] at alpha
    cases alpha
  have size : l.number.length = l.sign.length + (l.whole.length + l.pointed.length) := by
    rw [number, List.length_append, List.length_append]
  have nonempty := l.nonempty
  have decimal : ∀ c ∈ l.decimals, c.isDigit = true := fun _ => l.isDigit_of_mem_decimals
  rw [splitNumber?, splitSign_text, size]
  dsimp only
  unfold pointed decimals at *
  cases point : l.fraction with
  | none =>
    obtain ⟨takes, drops⟩ := Text.span_eq (fun c => l.isDigit_of_mem_whole) ends
    obtain ⟨c, unit, cons⟩ := List.exists_cons_of_ne_nil l.unit_ne_nil
    have alpha : c.isAlpha = true := l.isAlpha_of_mem_unit (cons ▸ List.mem_cons_self)
    rw [point, Option.getD_none, List.append_nil] at nonempty
    rw [List.nil_append, takes, drops, cons]
    split
    next rest eq =>
      cases eq
      cases alpha
    next =>
      rw [if_neg (by simpa using nonempty)]
      rfl
  | some ds =>
    rw [point, Option.getD_some] at decimal nonempty
    have dot : ∀ c ∈ ('.' :: (ds ++ l.unit)).head?, c.isDigit = false := by simp
    obtain ⟨takes, drops⟩ := Text.span_eq (fun c => l.isDigit_of_mem_whole) dot
    obtain ⟨takes', drops'⟩ := Text.span_eq decimal ends
    rw [List.cons_append, takes, drops]
    have sum : l.sign.length + l.whole.length + 1 + ds.length =
        l.sign.length + (l.whole.length + ('.' :: ds).length) := by
      rw [List.length_cons]
      omega
    split
    next rest eq =>
      cases eq
      rw [takes', drops', if_neg (by simpa using nonempty), sum]
      rfl
    next other => exact absurd rfl (other _)

end Length

theorem exists_sign (cs : List Char) : ∃ sign ∈ [[], ['+'], ['-']], cs = sign ++ (splitSign cs).2 := by
  cases cs with
  | nil => exact ⟨[], by decide, rfl⟩
  | cons c cs =>
    rw [splitSign]
    split
    next signed =>
      refine ⟨[c], ?_, rfl⟩
      rcases signed with rfl | rfl <;> decide
    next => exact ⟨[], by decide, rfl⟩

theorem exists_length {word unit : List Char} {n : Numeral} (read : splitNumber? word = some (n, unit))
    (known : ∃ u ∈ units, Text.eqIgnoringCase (String.ofList unit) u = true) :
    ∃ l : Length, word = l.text ∧ n = ⟨l.whole, l.decimals, l.number.length⟩ ∧ unit = l.unit := by
  have enough : ∃ l : Length, word = l.text := by
    obtain ⟨sign, signs, split⟩ := exists_sign word
    unfold splitNumber? at read
    generalize splitSign word = signed at *
    obtain ⟨size, cs⟩ := signed
    have whole : ∀ c ∈ cs.takeWhile Char.isDigit, c.isDigit = true := fun c mem =>
      List.mem_takeWhile_imp mem
    have cut : cs.takeWhile Char.isDigit ++ cs.dropWhile Char.isDigit = cs :=
      List.takeWhile_append_dropWhile
    simp only at read split
    split at read
    next rest dropped =>
      have decimals : ∀ c ∈ rest.takeWhile Char.isDigit, c.isDigit = true := fun c mem =>
        List.mem_takeWhile_imp mem
      have cut' : rest.takeWhile Char.isDigit ++ rest.dropWhile Char.isDigit = rest :=
        List.takeWhile_append_dropWhile
      split at read
      next => cases read
      next digits =>
        cases read
        refine ⟨⟨sign, cs.takeWhile Char.isDigit, .some (rest.takeWhile Char.isDigit), _, signs, ?_, ?_,
          known⟩, ?_⟩
        · exact List.forall_mem_append.2 ⟨whole, decimals⟩
        · simpa using digits
        · rw [Length.text_eq, Length.pointed, List.cons_append, cut', ← dropped, cut, split]
    next plain =>
      split at read
      next => cases read
      next digits =>
        cases read
        refine ⟨⟨sign, cs.takeWhile Char.isDigit, none, _, signs, ?_, ?_, known⟩, ?_⟩
        · rwa [Option.getD_none, List.append_nil]
        · simpa using digits
        · rw [Length.text_eq, Length.pointed, List.nil_append, cut, split]
  obtain ⟨l, rfl⟩ := enough
  rw [l.splitNumber?_text] at read
  cases read
  exact ⟨l, rfl, rfl, rfl⟩

theorem any_known_iff {unit : List Char} :
    lengthUnits.any (Text.eqIgnoringCase (String.ofList unit)) = true ↔
      ∃ u ∈ units, Text.eqIgnoringCase (String.ofList unit) u = true := by
  have same : lengthUnits = units := rfl
  rw [same, List.any_eq_true]

theorem zeroLengthUnit?_eq_some_iff {w : Word} {i : Nat} : zeroLengthUnit? w = some i ↔
    ∃ l : Length, w.text.toList = l.text ∧ i = w.offset + l.number.length ∧
      (Numeral.mk l.whole l.decimals l.number.length).isZero = true := by
  constructor
  · intro found
    unfold zeroLengthUnit? at found
    split at found
    next n unit read =>
      split at found
      next counts =>
        obtain ⟨zero, known⟩ := Bool.and_eq_true_iff.1 counts
        obtain ⟨l, text, rfl, rfl⟩ := exists_length read (any_known_iff.1 known)
        cases found
        exact ⟨l, text, rfl, zero⟩
      next => cases found
    next => cases found
  · rintro ⟨l, text, rfl, zero⟩
    rw [zeroLengthUnit?, text, l.splitNumber?_text]
    exact if_pos (Bool.and_eq_true_iff.2 ⟨zero, any_known_iff.2 l.known⟩)

end SheetLint.Rule
