import Mathlib.Tactic.SplitIfs
import SheetLint.Proofs.Value.Words

/-!
Which colors are malformed. The rule reports a `#` in a word unless a letter, a number or `&` stands
before it, no letter or digit stands after it, or the letters and digits after it make a color
(`MalformedAt`). Each `#` of a word is judged on its own. A search for a `#` with letters or digits after
it that goes on behind each match finds all of them too (`matchesFrom`), as no `#` stands in a match
but its first character.
-/

namespace SheetLint.Rule

def digitsAfter (word : List Char) (k : Nat) : List Char :=
  (word.drop (k + 1)).takeWhile Char.isAlphanum

def hexDigits : List Char :=
  "0123456789abcdefABCDEF".toList

structure MalformedAt (word : List Char) (k : Nat) : Prop where
  hash : word[k]? = some '#'
  apart : ∀ c ∈ (word.take k).getLast?, Text.isAlphanumeric c = false ∧ c ≠ '&'
  nonempty : digitsAfter word k ≠ []
  invalid : ¬((digitsAfter word k).length ∈ [3, 4, 6, 8] ∧ ∀ c ∈ digitsAfter word k, c ∈ hexDigits)

/-- A `#` with the letters and digits after it, and the character before it in its word. -/
structure ColorMatch where
  offset : Nat
  before : Option Char
  digits : List Char

def matchesFrom (offset : Nat) (before : Option Char) : List Char → List ColorMatch
  | [] => []
  | c :: cs =>
    let digits := cs.takeWhile Char.isAlphanum
    if c = '#' ∧ !digits.isEmpty then
      ⟨offset, before, digits⟩ ::
        matchesFrom (offset + c.utf8Size + (String.ofList digits).utf8ByteSize) digits.getLast?
          (cs.dropWhile Char.isAlphanum)
    else matchesFrom (offset + c.utf8Size) (some c) cs
termination_by cs => cs.length
decreasing_by
  · exact Nat.lt_succ_of_le (List.dropWhile_suffix _).length_le
  · exact Nat.lt_succ_self _

/-! ## Each `#` on its own -/

theorem isHexDigit_iff_mem {c : Char} : isHexDigit c = true ↔ c ∈ hexDigits := by
  constructor
  · intro hex
    have small : c.toNat < 128 := by
      simp only [isHexDigit, Bool.or_eq_true, Bool.and_eq_true, decide_eq_true_eq, isDigit_iff] at hex
      rcases hex with (digit | lower) | upper
      · exact Nat.lt_of_le_of_lt digit.2 (by decide)
      · exact Nat.lt_of_le_of_lt (m := 'f'.toNat) lower.2 (by decide)
      · exact Nat.lt_of_le_of_lt (m := 'F'.toNat) upper.2 (by decide)
    have ascii : ∀ n < 128, isHexDigit (Char.ofNat n) = true → Char.ofNat n ∈ hexDigits := by decide
    have found := ascii c.toNat small
    rw [Char.ofNat_toNat] at found
    exact found hex
  · have hex : hexDigits.all isHexDigit = true := rfl
    exact List.all_eq_true.1 hex c

theorem malformedAt_iff {word : List Char} {k : Nat} : MalformedAt word k ↔ word[k]? = some '#' ∧
    (!(digitsAfter word k).isEmpty) = true ∧ (!isGlue (word.take k).getLast?) = true ∧
    (!isHexColor (digitsAfter word k)) = true := by
  have glue : (!isGlue (word.take k).getLast?) = true ↔
      ∀ c ∈ (word.take k).getLast?, Text.isAlphanumeric c = false ∧ c ≠ '&' := by
    cases (word.take k).getLast? <;> simp [isGlue]
  have color : (!isHexColor (digitsAfter word k)) = true ↔ ¬((digitsAfter word k).length ∈ [3, 4, 6, 8] ∧
      ∀ c ∈ digitsAfter word k, c ∈ hexDigits) := by
    simp only [isHexColor, Bool.not_eq_true', ← Bool.not_eq_true, Bool.and_eq_true,
      List.contains_iff_mem, List.all_eq_true, isHexDigit_iff_mem]
  rw [glue, color]
  constructor
  · rintro ⟨hash, apart, nonempty, invalid⟩
    exact ⟨hash, by simpa using nonempty, apart, invalid⟩
  · rintro ⟨hash, nonempty, apart, invalid⟩
    exact ⟨hash, apart, by simpa using nonempty, invalid⟩

instance (word : List Char) : DecidablePred (MalformedAt word) := fun _ =>
  decidable_of_iff' _ malformedAt_iff

theorem malformedFrom_eq_filter (since : Nat) (passed rest : List Char) :
    malformedFrom (since + (String.ofList passed).utf8ByteSize) passed.getLast? rest =
      ((List.range' passed.length rest.length).filter (MalformedAt (passed ++ rest) ·)).map fun k =>
        (since + (String.ofList ((passed ++ rest).take k)).utf8ByteSize,
          digitsAfter (passed ++ rest) k) := by
  induction rest generalizing passed with
  | nil => rfl
  | cons c rest ih =>
    have later := ih (passed ++ [c])
    rw [← List.append_cons, List.length_append, List.length_singleton, List.getLast?_concat,
      utf8ByteSize_ofList_concat, ← Nat.add_assoc] at later
    have digits : digitsAfter (passed ++ c :: rest) passed.length = rest.takeWhile Char.isAlphanum := by
      simp [digitsAfter]
    have here : MalformedAt (passed ++ c :: rest) passed.length ↔
        c = '#' ∧ !(rest.takeWhile Char.isAlphanum).isEmpty ∧ !isGlue passed.getLast? ∧
          !isHexColor (rest.takeWhile Char.isAlphanum) := by
      rw [malformedAt_iff, digits]
      simp
    rw [malformedFrom, List.length_cons, List.range'_succ, List.filter_cons, later]
    simp only [decide_eq_true_eq, here]
    split_ifs
    · rw [List.map_cons, List.take_left, digits]
    · rfl

/-! ## The search -/

theorem malformedFrom_append {run : List Char} (solid : ∀ c ∈ run, c ≠ '#') (offset : Nat)
    (before : Option Char) (rest : List Char) :
    malformedFrom offset before (run ++ rest) =
      malformedFrom (offset + (String.ofList run).utf8ByteSize) (run.getLast?.or before) rest := by
  induction run generalizing offset before with
  | nil => rfl
  | cons c run ih =>
    obtain ⟨first, later⟩ := List.forall_mem_cons.1 solid
    have last : run.getLast?.or (some c) = (c :: run).getLast?.or before := by
      cases run <;> simp [List.getLast?_cons]
    rw [List.cons_append, malformedFrom, if_neg (fun color => first color.1), ih later, last,
      utf8ByteSize_ofList_cons, Nat.add_assoc]

theorem malformedFrom_eq_matches (offset : Nat) (before : Option Char) (cs : List Char) :
    malformedFrom offset before cs =
      ((matchesFrom offset before cs).filter fun m => !isGlue m.before && !isHexColor m.digits).map
        fun m => (m.offset, m.digits) := by
  fun_induction matchesFrom offset before cs with
  | case1 => rfl
  | case2 offset before c cs digits found ih =>
    have solid : ∀ d ∈ digits, d ≠ '#' := by
      rintro d mem rfl
      have alphanum : Char.isAlphanum '#' = true := List.mem_takeWhile_imp mem
      cases alphanum
    have last : digits.getLast?.or (some c) = digits.getLast? := by
      cases some : digits with
      | nil => simp [some] at found
      | cons d more => simp [List.getLast?_cons]
    have cut : digits ++ cs.dropWhile Char.isAlphanum = cs := List.takeWhile_append_dropWhile
    -- What the match takes has no other `#`, so nothing is found in it.
    have onward := malformedFrom_append solid (offset + c.utf8Size) (some c)
      (cs.dropWhile Char.isAlphanum)
    rw [cut, last, ih] at onward
    rw [malformedFrom, onward, List.filter_cons]
    by_cases malformed : (!isGlue before && !isHexColor digits) = true
    · have color := Bool.and_eq_true_iff.1 malformed
      rw [if_pos malformed, if_pos ⟨found.1, found.2, color⟩, List.map_cons]
    · rw [if_neg malformed, if_neg fun color => malformed (Bool.and_eq_true_iff.2 color.2.2)]
  | case3 offset before c cs digits other ih =>
    rw [malformedFrom, if_neg (fun color => other ⟨color.1, color.2.1⟩), ih]

/-! ## The rule -/

theorem malformedFrom_word (w : Word) : malformedFrom w.offset none w.text.toList =
    ((List.range w.text.toList.length).filter (MalformedAt w.text.toList ·)).map fun k =>
      (w.offset + (String.ofList (w.text.toList.take k)).utf8ByteSize, digitsAfter w.text.toList k) := by
  have whole := malformedFrom_eq_filter w.offset [] w.text.toList
  rwa [List.length_nil, ← List.range_eq_range'] at whole

def invalidColor (p : Position) (digits : List Char) : Finding :=
  ⟨p, "Unexpected invalid hex color \"" ++ String.ofList ('#' :: digits) ++ "\""⟩

theorem malformedColors_eq (d : Declaration) :
    malformedColors d = (Value.words d.value ["url"]).flatMap fun w =>
      (malformedFrom w.offset none w.text.toList).map fun m =>
        invalidColor (d.valuePosition m.1) m.2 := by
  have text (digits : List Char) : "Unexpected invalid hex color \"" ++ String.ofList ('#' :: digits) =
      "Unexpected invalid hex color \"#" ++ String.ofList digits := by
    rw [String.ofList_cons, ← String.append_assoc]
    congr 1
  simp only [malformedColors, invalidColor, text]

/-- The rule reports, declaration by declaration and word by word, every `#` at which a malformed color
begins, at its place and with the letters and digits after it, and nothing else. A search for the colors
that goes on behind each match comes to the same. -/
theorem colorNoInvalidHex_check (context : Context) (sheet : Sheet) :
    colorNoInvalidHex.check context sheet =
      ⟨sheet.declarations.flatMap fun d => (Value.words d.value ["url"]).flatMap fun w =>
        ((List.range w.text.toList.length).filter (MalformedAt w.text.toList ·)).map fun k =>
          invalidColor
            (d.valuePosition (w.offset + (String.ofList (w.text.toList.take k)).utf8ByteSize))
            (digitsAfter w.text.toList k), .finished⟩ ∧
    colorNoInvalidHex.check context sheet =
      ⟨sheet.declarations.flatMap fun d => (Value.words d.value ["url"]).flatMap fun w =>
        ((matchesFrom w.offset none w.text.toList).filter fun m =>
            !isGlue m.before && !isHexColor m.digits).map fun m =>
          invalidColor (d.valuePosition m.offset) m.digits, .finished⟩ := by
  have check : colorNoInvalidHex.check context sheet =
      ⟨sheet.declarations.flatMap malformedColors, .finished⟩ := rfl
  rw [check, funext malformedColors_eq]
  constructor
  · simp only [malformedFrom_word, List.map_map, Function.comp_def]
  · simp only [malformedFrom_eq_matches, List.map_map, Function.comp_def]

example : (List.range 11).filter (MalformedAt "#12345z-#ff".toList ·) = [0, 8] := by
  decide

end SheetLint.Rule
