import Mathlib.Algebra.Order.Field.Basic
import Mathlib.Algebra.Order.Field.Rat
import SheetLint.Proofs.Number.Underflow
import SheetLint.Proofs.Value.Meaning

namespace SheetLint.Rule

namespace Length

def magnitude (l : Length) : ℚ :=
  naturalOf l.digits / 10 ^ l.decimals.length

/-- Whether the floating-point number nearest to the number is a zero. -/
def RoundsToZero (l : Length) : Prop :=
  ∃ x, Binary64.ofRatio? (l.sign == ['-']) (naturalOf l.digits) (10 ^ l.decimals.length) = some x ∧
    x.mantissa = 0

end Length

def Vanishes (word : List Char) : Prop :=
  ∃ l : Length, l.text = word ∧ l.RoundsToZero

/-! ## Zeros -/

theorem naturalOf_concat (ds : List Char) (d : Char) :
    naturalOf (ds ++ [d]) = 10 * naturalOf ds + (d.toNat - '0'.toNat) := by
  rw [naturalOf, List.foldl_append]
  rfl

theorem naturalOf_eq_zero_iff {ds : List Char} (decimal : ∀ d ∈ ds, d.isDigit = true) :
    naturalOf ds = 0 ↔ ∀ d ∈ ds, d = '0' := by
  induction ds using List.reverseRecOn with
  | nil => simp [naturalOf]
  | append_singleton ds d ih =>
    rw [List.forall_mem_append] at decimal
    have last : d.toNat - '0'.toNat = 0 ↔ d = '0' := by
      have digit := (Char.isDigit_iff_toNat.1 (decimal.2 d List.mem_cons_self)).1
      rw [Nat.sub_eq_zero_iff_le, ← Char.toNat_inj]
      exact ⟨fun le => le.antisymm digit, fun eq => eq.le⟩
    rw [naturalOf_concat, Nat.add_eq_zero_iff, last, List.forall_mem_append, List.forall_mem_singleton,
      ← ih decimal.1, Nat.mul_eq_zero]
    simp

theorem isZero_iff (n : Numeral) (negative : Bool) : n.isZero = true ↔
    ∃ x, Binary64.ofRatio? negative (naturalOf (n.whole ++ n.fraction)) (10 ^ n.fraction.length) =
      some x ∧ x.mantissa = 0 := by
  rw [Binary64.ofRatio?_zero_iff negative (Nat.pow_pos (by decide)), Numeral.isZero]
  generalize 1075 = k
  rw [decide_eq_true_eq, Nat.pow_eq, Nat.pow_eq]

namespace Length

theorem magnitude_eq_zero_iff (l : Length) : l.magnitude = 0 ↔ ∀ c ∈ l.digits, c = '0' := by
  have positive : (10 : ℚ) ^ l.decimals.length ≠ 0 := pow_ne_zero _ (by norm_num)
  rw [magnitude, div_eq_zero_iff, or_iff_left positive, Nat.cast_eq_zero]
  exact naturalOf_eq_zero_iff l.decimal

theorem magnitude_le_iff (l : Length) (k : Nat) :
    l.magnitude ≤ 1 / 2 ^ k ↔ naturalOf l.digits * 2 ^ k ≤ 10 ^ l.decimals.length := by
  have tens : (0 : ℚ) < 10 ^ l.decimals.length := pow_pos (by norm_num) _
  have twos : (0 : ℚ) < 2 ^ k := pow_pos (by norm_num) _
  rw [magnitude, div_le_div_iff₀ tens twos, one_mul]
  exact_mod_cast Iff.rfl

theorem roundsToZero_iff (l : Length) : l.RoundsToZero ↔ l.magnitude ≤ 1 / 2 ^ 1075 := by
  rw [RoundsToZero, Binary64.ofRatio?_zero_iff _ (Nat.pow_pos (by decide)), magnitude_le_iff]

theorem roundsToZero_of_zero {l : Length} (zero : l.magnitude = 0) : l.RoundsToZero := by
  rw [roundsToZero_iff, zero]
  exact div_nonneg zero_le_one (pow_nonneg zero_le_two _)

theorem le_length_decimals {l : Length} (rounds : l.RoundsToZero) (nonzero : l.magnitude ≠ 0) :
    324 ≤ l.decimals.length := by
  have power {k j : Nat} (less : Nat.pow 10 k < Nat.pow 2 j) : 10 ^ k < 2 ^ j := less
  have small : 10 ^ 323 < 2 ^ 1075 := power (by decide +kernel)
  rw [roundsToZero_iff, magnitude_le_iff] at rounds
  have positive : 0 < naturalOf l.digits := by
    apply Nat.pos_of_ne_zero
    intro zero
    rw [magnitude, zero, Nat.cast_zero, zero_div] at nonzero
    exact nonzero rfl
  have most : 2 ^ 1075 ≤ 10 ^ l.decimals.length := (Nat.le_mul_of_pos_left _ positive).trans rounds
  exact (pow_lt_pow_iff_right₀ (by decide)).1 (small.trans_le most)

theorem takeWhile_text (l : Length) : l.text.takeWhile (!·.isAlpha) = l.number := by
  obtain ⟨c, unit, cons⟩ := List.exists_cons_of_ne_nil l.unit_ne_nil
  have alpha : c.isAlpha = true := l.isAlpha_of_mem_unit (cons ▸ List.mem_cons_self)
  have plain : ∀ c ∈ l.number, (!c.isAlpha) = true := by
    intro c mem
    rw [l.not_isAlpha_of_mem_number mem, Bool.not_false]
  rw [text, List.takeWhile_append_of_pos plain, cons, List.takeWhile_cons_of_neg (by simp [alpha]),
    List.append_nil]

end Length

/-! ## The rule -/

def unitOffset (w : Word) : Nat :=
  w.offset + (String.ofList (w.text.toList.takeWhile (!·.isAlpha))).utf8ByteSize

theorem zeroLengthUnit?_of_vanishes {w : Word} (vanishes : Vanishes w.text.toList) :
    zeroLengthUnit? w = some (unitOffset w) := by
  obtain ⟨l, text, zero⟩ := vanishes
  refine zeroLengthUnit?_eq_some_iff.2 ⟨l, text.symm, ?_, (isZero_iff _ _).2 zero⟩
  rw [unitOffset, ← text, l.takeWhile_text, utf8ByteSize_ofList_of_ascii l.ascii_number]

theorem vanishes_of_zeroLengthUnit? {w : Word} {i : Nat} (found : zeroLengthUnit? w = some i) :
    Vanishes w.text.toList := by
  obtain ⟨l, text, -, zero⟩ := zeroLengthUnit?_eq_some_iff.1 found
  exact ⟨l, text.symm, (isZero_iff _ _).1 zero⟩

theorem vanishes_text_iff (l : Length) : Vanishes l.text ↔ l.RoundsToZero := by
  constructor
  · rintro ⟨other, same, rounds⟩
    have read := other.splitNumber?_text
    rw [same, l.splitNumber?_text, Option.some.injEq, Prod.mk.injEq, Numeral.mk.injEq] at read
    obtain ⟨⟨whole, decimals, -⟩, -⟩ := read
    rw [Length.roundsToZero_iff, Length.magnitude, Length.digits] at rounds ⊢
    rwa [whole, decimals]
  · intro rounds
    exact ⟨l, rfl, rounds⟩

instance : DecidablePred Vanishes := fun word =>
  decidable_of_iff ((zeroLengthUnit? ⟨0, String.ofList word⟩).isSome = true) <| by
    rw [Option.isSome_iff_exists]
    constructor
    · rintro ⟨i, found⟩
      simpa using vanishes_of_zeroLengthUnit? found
    · intro vanishes
      exact ⟨_, zeroLengthUnit?_of_vanishes (by simpa using vanishes)⟩

theorem zeroLengthUnit?_eq (w : Word) :
    zeroLengthUnit? w = if Vanishes w.text.toList then some (unitOffset w) else none := by
  split
  next vanishes => exact zeroLengthUnit?_of_vanishes vanishes
  next other =>
    cases found : zeroLengthUnit? w with
    | none => rfl
    | some i => exact absurd (vanishes_of_zeroLengthUnit? found) other

theorem zeroLengths_eq (d : Declaration) :
    zeroLengths d = if "--".toList <+: d.prop.toList then []
      else ((Value.words d.value ["url", "calc", "var"]).filter (Vanishes ·.text.toList)).map fun w =>
        ⟨d.valuePosition (unitOffset w), "Unexpected unit"⟩ := by
  simp only [zeroLengths, List.isPrefixOf_iff_prefix]
  split
  · rfl
  · rw [← List.filterMap_eq_map, List.filterMap_filter]
    apply List.filterMap_congr
    intro w _
    rw [zeroLengthUnit?_eq]
    by_cases vanishes : Vanishes w.text.toList <;> simp [vanishes]

/-- The rule reports, declaration by declaration, the words that are lengths and round to zero, each at
the first letter of its unit, and nothing else; custom properties are left out. A length rounds to zero if
its number is zero, which is so when all of its digits are; another one does so only if it is at most
2 ^ -1075, and has then at least 324 digits behind the point. -/
theorem lengthZeroNoUnit_check (context : Context) (sheet : Sheet) :
    lengthZeroNoUnit.check context sheet =
      ⟨sheet.declarations.flatMap fun d => if "--".toList <+: d.prop.toList then []
        else ((Value.words d.value ["url", "calc", "var"]).filter (Vanishes ·.text.toList)).map fun w =>
          ⟨d.valuePosition (unitOffset w), "Unexpected unit"⟩, .finished⟩ ∧
    ∀ l : Length, (l.magnitude = 0 ↔ ∀ c ∈ l.digits, c = '0') ∧
      (Vanishes l.text ↔ l.magnitude = 0 ∨ 324 ≤ l.decimals.length ∧ l.magnitude ≤ 1 / 2 ^ 1075) := by
  have check : lengthZeroNoUnit.check context sheet =
      ⟨sheet.declarations.flatMap zeroLengths, .finished⟩ := rfl
  refine ⟨?_, fun l => ⟨l.magnitude_eq_zero_iff, ?_⟩⟩
  · rw [check, funext zeroLengths_eq]
  · rw [vanishes_text_iff]
    constructor
    · intro rounds
      by_cases zero : l.magnitude = 0
      · exact .inl zero
      · exact .inr ⟨Length.le_length_decimals rounds zero, l.roundsToZero_iff.1 rounds⟩
    · rintro (zero | ⟨-, small⟩)
      · exact Length.roundsToZero_of_zero zero
      · exact l.roundsToZero_iff.2 small

/-! ## A value that is one length -/

theorem not_isSeparator_of_isAlphanum {c : Char} (plain : c.isAlphanum = true) :
    Value.isSeparator c = false := by
  have range : 48 ≤ c.val.toNat ∧ c.val.toNat ≤ 122 := by
    rw [Char.isAlphanum, Bool.or_eq_true, isAlpha_iff, isDigit_iff] at plain
    omega
  have blank : Text.isBlank c = false := by
    simp only [Text.isBlank, Char.toNat]
    grind
  have apart {mark : Char} (other : mark.isAlphanum = false) : (c == mark) = false := by
    rw [beq_eq_false_iff_ne]
    rintro rfl
    exact absurd plain (Bool.eq_false_iff.1 other)
  have marks : ∀ mark ∈ [',', '/', '(', ')', '"', '\''], (c == mark) = false := by
    simp only [List.forall_mem_cons, List.not_mem_nil, false_implies, implies_true, and_true]
    exact ⟨apart rfl, apart rfl, apart rfl, apart rfl, apart rfl, apart rfl⟩
  rw [Value.isSeparator, blank]
  simp [marks]

theorem words_text (l : Length) (skip : List String) :
    Value.words (String.ofList l.text) skip = [⟨0, String.ofList l.text⟩] := by
  have solid : ∀ c ∈ l.text, Value.isSeparator c = false := by
    intro c mem
    rcases List.mem_append.1 mem with mem | mem
    · rcases Length.mem_number mem with digit | rfl | rfl | rfl
      · have plain : c.isAlphanum = true := by rw [Char.isAlphanum, digit, Bool.or_true]
        exact not_isSeparator_of_isAlphanum plain
      · rfl
      · rfl
      · rfl
    · have plain : c.isAlphanum = true := by
        rw [Char.isAlphanum, l.isAlpha_of_mem_unit mem, Bool.true_or]
      exact not_isSeparator_of_isAlphanum plain
  have run : l.text.reverse.isEmpty = false := by
    simp [Length.text, l.unit_ne_nil]
  have items := Value.itemsFrom_run solid 0 0 [] []
  rw [List.append_nil, List.append_nil] at items
  rw [Value.words, Value.items, String.toList_ofList, items, Value.itemsFrom, Value.endRun, run,
    if_neg Bool.false_ne_true, List.reverse_reverse]
  rfl

theorem zeroLengths_text {l : Length} (rounds : l.RoundsToZero) {prop : String}
    (ordinary : ¬ "--".toList <+: prop.toList) (important : Bool) (start valueStart : Position) :
    zeroLengths ⟨prop, String.ofList l.text, important, start, valueStart⟩ =
      [⟨valueStart.advance l.number, "Unexpected unit"⟩] := by
  have vanishes : Vanishes (String.ofList l.text).toList := by
    rwa [String.toList_ofList, vanishes_text_iff]
  have place : Declaration.valuePosition ⟨prop, String.ofList l.text, important, start, valueStart⟩
      (unitOffset ⟨0, String.ofList l.text⟩) = valueStart.advance l.number := by
    rw [unitOffset, String.toList_ofList, l.takeWhile_text, Nat.zero_add]
    apply Declaration.valuePosition_eq
    rw [String.toList_ofList, Length.text]
  rw [zeroLengths_eq, if_neg ordinary, words_text, List.filter_cons_of_pos (by simpa using vanishes),
    List.filter_nil, List.map_singleton, place]

theorem lengthZeroNoUnit_declaration (context : Context) (d : Declaration) :
    lengthZeroNoUnit.check context ⟨[.declaration d]⟩ = ⟨zeroLengths d, .finished⟩ := by
  show Outcome.mk (zeroLengths d ++ []) .finished = ⟨zeroLengths d, .finished⟩
  rw [List.append_nil]

def centipixel (zeros : Nat) : Length where
  sign := []
  whole := ['0']
  fraction := some (List.replicate zeros '0' ++ ['1'])
  unit := ['p', 'x']
  signs := List.mem_cons_self
  decimal := by
    intro c mem
    simp only [Option.getD_some, List.mem_append, List.mem_singleton, List.mem_replicate] at mem
    rcases mem with rfl | ⟨-, rfl⟩ | rfl <;> rfl
  nonempty := List.cons_ne_nil _ _
  known := ⟨"px", by decide, by decide⟩

theorem naturalOf_centipixel (zeros : Nat) : naturalOf (centipixel zeros).digits = 1 := by
  have digits : (centipixel zeros).digits = (['0'] ++ List.replicate zeros '0') ++ ['1'] := rfl
  have none : naturalOf (['0'] ++ List.replicate zeros '0') = 0 := by
    rw [naturalOf_eq_zero_iff (by simp)]
    simp
  rw [digits, naturalOf_concat, none]
  rfl

theorem number_centipixel (zeros : Nat) :
    (centipixel zeros).number = ['0', '.'] ++ (List.replicate zeros '0' ++ ['1']) :=
  rfl

theorem roundsToZero_centipixel : (centipixel 323).RoundsToZero := by
  have power {k j : Nat} (le : Nat.pow 2 k ≤ Nat.pow 10 j) : 2 ^ k ≤ 10 ^ j := le
  have decimals : (centipixel 323).decimals.length = 324 := by
    rw [Length.decimals, centipixel, Option.getD_some, List.length_append, List.length_replicate]
    rfl
  rw [Length.roundsToZero_iff, Length.magnitude_le_iff, naturalOf_centipixel, decimals, Nat.one_mul]
  exact power (by decide +kernel)

theorem lengthZeroNoUnit_centipixel :
    (centipixel 323).magnitude ≠ 0 ∧
      lengthZeroNoUnit.check ⟨.bool true, .css⟩
        ⟨[.declaration ⟨"b", String.ofList (centipixel 323).text, false, ⟨1, 3⟩, ⟨1, 5⟩⟩]⟩ =
        ⟨[⟨⟨1, 331⟩, "Unexpected unit"⟩], .finished⟩ := by
  constructor
  · have digit : '1' ∈ (centipixel 323).digits :=
      List.mem_append_right _ (List.mem_append_right _ List.mem_cons_self)
    rw [Ne, Length.magnitude_eq_zero_iff]
    intro zeros
    exact absurd (zeros '1' digit) (by decide)
  · have inline : '\n' ∉ (centipixel 323).number := by
      intro mem
      rcases Length.mem_unsigned mem with digit | point
      · cases digit
      · cases point
    have length : (centipixel 323).number.length = 326 := by
      rw [number_centipixel, List.length_append, List.length_append, List.length_replicate]
      rfl
    rw [lengthZeroNoUnit_declaration, zeroLengths_text roundsToZero_centipixel (by decide),
      Position.advance_of_not_mem inline, length]

end SheetLint.Rule
