import Mathlib.Algebra.Order.Group.Nat
import Mathlib.Tactic.SplitIfs
import SheetLint.Number.Binary64

namespace SheetLint.Binary64

variable {num den : Nat}

theorem roundDiv_eq_zero_iff (positive : 0 < den) : roundDiv num den = 0 ↔ 2 * num ≤ den := by
  rw [roundDiv]
  rcases Nat.lt_or_ge num den with less | le
  · rw [Nat.div_eq_of_lt less, Nat.mod_eq_of_lt less]
    grind
  · have quotient : 0 < num / den := Nat.div_pos le positive
    grind

/-! ## The scaled fraction -/

theorem scaled_snd_pos (positive : 0 < den) (exponent : Int) : 0 < (scaled num den exponent).2 := by
  unfold scaled
  split
  · exact positive
  · exact Nat.mul_pos positive (Nat.two_pow_pos _)

theorem scaled_of_neg {exponent : Int} {k : Nat} (eq : (-exponent).toNat = k) (negative : exponent < 0) :
    scaled num den exponent = (num * 2 ^ k, den) := by
  rw [scaled, if_pos negative, eq, Nat.pow_eq]

theorem le_scaled_iff {exponent : Int} {p q : Nat} (eq : exponent = (p : Int) - q) (x : Nat) :
    (scaled num den exponent).2 * x ≤ (scaled num den exponent).1 ↔ den * 2 ^ p * x ≤ num * 2 ^ q := by
  by_cases negative : exponent < 0
  · obtain ⟨k, rfl⟩ : ∃ k, q = k + p := ⟨q - p, by omega⟩
    have shift : (-exponent).toNat = k := by omega
    rw [scaled_of_neg shift negative, Nat.pow_add, ← Nat.mul_assoc, Nat.mul_right_comm den,
      Nat.mul_le_mul_right_iff (Nat.two_pow_pos p)]
  · obtain ⟨k, rfl⟩ : ∃ k, p = k + q := ⟨p - q, by omega⟩
    have shift : exponent.toNat = k := by omega
    rw [scaled, if_neg negative, shift, Nat.pow_eq, Nat.pow_add, ← Nat.mul_assoc,
      Nat.mul_right_comm _ (2 ^ q) x, Nat.mul_le_mul_right_iff (Nat.two_pow_pos q)]

theorem le_scaled_log (nonzero : num ≠ 0) :
    (scaled num den ((Nat.log2 num : Int) - Nat.log2 den - 52 - 1)).2 * 2 ^ 52 ≤
      (scaled num den ((Nat.log2 num : Int) - Nat.log2 den - 52 - 1)).1 := by
  have exponent : (Nat.log2 num : Int) - Nat.log2 den - 52 - 1 =
      (Nat.log2 num : Int) - (Nat.log2 den + 53 : Nat) := by omega
  have below : den ≤ 2 ^ (Nat.log2 den + 1) := Nat.lt_log2_self.le
  rw [le_scaled_iff exponent]
  calc den * 2 ^ Nat.log2 num * 2 ^ 52
      = 2 ^ Nat.log2 num * (den * 2 ^ 52) := by rw [Nat.mul_comm den, Nat.mul_assoc]
    _ ≤ num * (2 ^ (Nat.log2 den + 1) * 2 ^ 52) :=
      Nat.mul_le_mul (Nat.log2_self_le nonzero) (Nat.mul_le_mul_right _ below)
    _ = num * 2 ^ (Nat.log2 den + 53) := by rw [← Nat.pow_add]

theorem le_scaled_of_lt (nonzero : num ≠ 0) (above : minExponent < exponentOf num den) :
    (scaled num den (exponentOf num den)).2 * 2 ^ 52 ≤ (scaled num den (exponentOf num den)).1 := by
  simp only [exponentOf, Nat.pow_eq, lt_max_iff, lt_irrefl, false_or] at above ⊢
  rw [max_eq_right above.le]
  split
  next => exact le_scaled_log nonzero
  next enough => exact Nat.le_of_not_lt enough

/-! ## Rounding -/

theorem ofRatio?_zero_iff_roundDiv (negative : Bool) (nonzero : num ≠ 0) :
    (∃ x, ofRatio? negative num den = some x ∧ x.mantissa = 0) ↔
      roundDiv (scaled num den (exponentOf num den)).1 (scaled num den (exponentOf num den)).2 = 0 ∧
        exponentOf num den ≤ maxExponent := by
  have cut_ne_zero : Nat.pow 2 52 ≠ 0 := by decide
  have full_ne_zero : Nat.pow 2 53 ≠ 0 := by decide
  rw [ofRatio?, if_neg nonzero]
  extract_lets exponent
  split
  next n d scale =>
    rw [scale]
    extract_lets mantissa
    by_cases full : mantissa = Nat.pow 2 53
    · have never : roundDiv n d ≠ 0 := fun zero => full_ne_zero (full.symm.trans zero)
      rw [if_pos full]
      constructor
      · rintro ⟨x, rounded, zero⟩
        rw [Option.ite_none_left_eq_some] at rounded
        cases rounded.2
        exact absurd zero cut_ne_zero
      · rintro ⟨zero, -⟩
        exact absurd zero never
    · rw [if_neg full]
      constructor
      · rintro ⟨x, rounded, zero⟩
        rw [Option.ite_none_left_eq_some] at rounded
        cases rounded.2
        exact ⟨zero, Int.not_lt.1 rounded.1⟩
      · rintro ⟨zero, small⟩
        exact ⟨_, if_neg (Int.not_lt.2 small), zero⟩

/-- A fraction rounds to zero iff it is at most half of the smallest positive number. -/
theorem ofRatio?_zero_iff (negative : Bool) (positive : 0 < den) :
    (∃ x, ofRatio? negative num den = some x ∧ x.mantissa = 0) ↔ num * 2 ^ 1075 ≤ den := by
  by_cases zero : num = 0
  · rw [zero, Nat.zero_mul]
    exact ⟨fun _ => Nat.zero_le den, fun _ => ⟨_, rfl, rfl⟩⟩
  have double (k : Nat) : num * 2 ^ (k + 1) = num * 2 ^ k * 2 := by rw [Nat.pow_succ, Nat.mul_assoc]
  rw [ofRatio?_zero_iff_roundDiv negative zero, roundDiv_eq_zero_iff (scaled_snd_pos positive _),
    double 1074]
  have filled (k : Nat) : 0 < num * 2 ^ k := Nat.mul_pos (Nat.pos_of_ne_zero zero) (Nat.two_pow_pos k)
  have atLeast : minExponent ≤ exponentOf num den := Int.le_max_left _ _
  -- With the smallest exponent the fraction is rounded once, and with a greater one it keeps a digit.
  rcases atLeast.eq_or_lt with least | above
  · have scale : scaled num den minExponent = (num * 2 ^ 1074, den) := scaled_of_neg rfl (by decide)
    rw [← least, scale, Nat.mul_comm 2]
    exact and_iff_left (by decide)
  · have exponent : exponentOf num den = ((exponentOf num den + 1074).toNat : Int) - (1074 : Nat) := by
      unfold minExponent at above
      omega
    have digits := le_scaled_of_lt zero above
    have large := (le_scaled_iff exponent _).1 digits
    have bottom : 0 < (scaled num den (exponentOf num den)).2 := scaled_snd_pos positive _
    have great : den ≤ num * 2 ^ 1074 := by
      rw [Nat.mul_assoc] at large
      have factor : 0 < 2 ^ (exponentOf num den + 1074).toNat * 2 ^ 52 :=
        Nat.mul_pos (Nat.two_pow_pos _) (Nat.two_pow_pos _)
      exact (Nat.le_mul_of_pos_right den factor).trans large
    have numerator := filled 1074
    constructor
    · rintro ⟨half, -⟩
      omega
    · intro half
      omega

end SheetLint.Binary64
