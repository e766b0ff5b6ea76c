import Mathlib.Data.List.TakeWhile
import SheetLint.Proofs.Source
import SheetLint.Proofs.Value.Length
import SheetLint.Rule.ColorNoInvalidHex

namespace SheetLint

def Word.In (w : Word) (text : List Char) : Prop :=
  ∃ before after, text = before ++ (w.text.toList ++ after) ∧
    w.offset = (String.ofList before).utf8ByteSize

namespace Value

def Mode.Begun (read : List Char) : Mode → Prop
  | .run start chars =>
    ∃ before, read = before ++ chars.reverse ∧ start = (String.ofList before).utf8ByteSize
  | .string _ _ => True

theorem in_of_mem_endRun {read rest : List Char} {start : Nat} {chars : List Char}
    (begun : (Mode.run start chars).Begun read) {w : Word} (mem : .run w ∈ endRun start chars) :
    w.In (read ++ rest) := by
  obtain ⟨before, rfl, rfl⟩ := begun
  unfold endRun at mem
  split at mem
  · cases mem
  · cases List.mem_singleton.1 mem
    exact ⟨before, rest, by simp, rfl⟩

theorem in_of_mem_itemsFrom {read rest : List Char} {offset : Nat} {mode : Mode}
    (here : offset = (String.ofList read).utf8ByteSize) (begun : mode.Begun read) {w : Word}
    (mem : .run w ∈ itemsFrom offset mode rest) : w.In (read ++ rest) := by
  have further {read : List Char} {offset : Nat} (here : offset = (String.ofList read).utf8ByteSize)
      (c : Char) : offset + c.utf8Size = (String.ofList (read ++ [c])).utf8ByteSize := by
    rw [utf8ByteSize_ofList_append, utf8ByteSize_ofList_cons, here]
    rfl
  induction rest generalizing read offset mode with
  | nil =>
    cases mode with
    | run start chars => exact in_of_mem_endRun begun mem
    | string quote escaped => cases mem
  | cons c rest ih =>
    have empty : (Mode.run (offset + c.utf8Size) []).Begun (read ++ [c]) :=
      ⟨read ++ [c], by simp, further here c⟩
    have string (quote : Char) (escaped : Bool) : (Mode.string quote escaped).Begun (read ++ [c]) :=
      trivial
    rw [List.append_cons]
    cases mode with
    | run start chars =>
      simp only [itemsFrom] at mem
      split at mem
      next separates =>
        rcases List.mem_append.1 mem with mem | mem
        · rw [← List.append_cons]
          exact in_of_mem_endRun begun mem
        · rcases List.mem_cons.1 mem with same | mem
          · unfold itemOf at same
            split_ifs at same
          · split at mem
            · exact ih (further here c) (string _ _) mem
            · exact ih (further here c) empty mem
      next inside =>
        obtain ⟨before, rfl, size⟩ := begun
        have longer : (Mode.run start (c :: chars)).Begun (before ++ chars.reverse ++ [c]) :=
          ⟨before, by simp, size⟩
        exact ih (further here c) longer mem
    | string quote escaped =>
      simp only [itemsFrom] at mem
      split_ifs at mem
      · exact ih (further here c) (string _ _) mem
      · exact ih (further here c) (string _ _) mem
      · exact ih (further here c) empty mem
      · exact ih (further here c) (string _ _) mem

def Item.run? : Item → Option Word
  | .run w => some w
  | _ => none

theorem wordsIn_sublist (skip functions : List String) (is : List Item) :
    List.Sublist (wordsIn skip functions is) (is.filterMap Item.run?) := by
  fun_induction wordsIn skip functions is with
  | case1 => exact .slnil
  | case2 functions w rest ih | case3 functions w rest other skipped ih => exact ih.cons w
  | case4 functions w rest other kept ih => exact ih.cons_cons w
  | case5 functions rest ih | case6 functions rest ih | case7 functions rest ih => exact ih

theorem mem_items_of_mem_wordsIn {skip functions : List String} {is : List Item} {w : Word}
    (mem : w ∈ wordsIn skip functions is) : .run w ∈ is := by
  obtain ⟨i, among, run⟩ := List.mem_filterMap.1 ((wordsIn_sublist skip functions is).subset mem)
  cases i with
  | run v =>
    cases run
    exact among
  | opening | closing | gap => cases run

theorem in_of_mem_words {value : String} {skip : List String} {w : Word}
    (mem : w ∈ words value skip) : w.In value.toList := by
  have begun : (Mode.run 0 []).Begun [] := ⟨[], rfl, rfl⟩
  exact in_of_mem_itemsFrom rfl begun (mem_items_of_mem_wordsIn mem)

end Value

/-! ## Findings about values -/

namespace Rule

theorem hash_of_mem_malformedFrom {offset : Nat} {before : Option Char} {cs : List Char}
    {m : Nat × List Char} (mem : m ∈ malformedFrom offset before cs) :
    ∃ passed more, cs = passed ++ '#' :: more ∧
      m.1 = offset + (String.ofList passed).utf8ByteSize := by
  fun_induction malformedFrom offset before cs with
  | case1 => cases mem
  | case2 offset before c cs digits more color ih =>
    rcases List.mem_cons.1 mem with rfl | mem
    · exact ⟨[], cs, by simp [color.1], by simp⟩
    · obtain ⟨passed, after, rfl, size⟩ := ih mem
      exact ⟨c :: passed, after, rfl, by rw [size, utf8ByteSize_ofList_cons, Nat.add_assoc]⟩
  | case3 offset before c cs digits more other ih =>
    obtain ⟨passed, after, rfl, size⟩ := ih mem
    exact ⟨c :: passed, after, rfl, by rw [size, utf8ByteSize_ofList_cons, Nat.add_assoc]⟩

theorem charAt_of_mem_malformedFrom {d : Declaration} {skip : List String} {w : Word}
    (word : w ∈ Value.words d.value skip) {m : Nat × List Char}
    (found : m ∈ malformedFrom w.offset none w.text.toList) : d.CharAt m.1 '#' := by
  obtain ⟨before, after, whole, offset⟩ := Value.in_of_mem_words word
  obtain ⟨passed, more, split, at'⟩ := hash_of_mem_malformedFrom found
  rw [at', offset, ← utf8ByteSize_ofList_append]
  have cut : d.value.toList = (before ++ passed) ++ '#' :: (more ++ after) := by
    rw [whole, split]
    simp
  exact Declaration.charAt_of_split cut

theorem charAt_of_mem_malformedColors {d : Declaration} {f : Finding}
    (mem : f ∈ malformedColors d) : ∃ i, d.CharAt i '#' ∧ f.pos = d.valuePosition i := by
  obtain ⟨w, word, mem⟩ := List.mem_flatMap.1 mem
  obtain ⟨m, found, rfl⟩ := List.mem_map.1 mem
  exact ⟨m.1, charAt_of_mem_malformedFrom word found, rfl⟩

def UnitAt (d : Declaration) (offset : Nat) : Prop :=
  ∃ before c unit after, d.value.toList = before ++ c :: (unit ++ after) ∧
    offset = (String.ofList before).utf8ByteSize ∧
    lengthUnits.any (Text.eqIgnoringCase (String.ofList (c :: unit))) = true

theorem number_of_zeroLengthUnit? {w : Word} {i : Nat} (found : zeroLengthUnit? w = some i) :
    ∃ number c unit, w.text.toList = number ++ c :: unit ∧
      i = w.offset + (String.ofList number).utf8ByteSize ∧
      lengthUnits.any (Text.eqIgnoringCase (String.ofList (c :: unit))) = true := by
  obtain ⟨l, text, rfl, -⟩ := zeroLengthUnit?_eq_some_iff.1 found
  obtain ⟨c, unit, cons⟩ := List.exists_cons_of_ne_nil l.unit_ne_nil
  refine ⟨l.number, c, unit, ?_, ?_, ?_⟩
  · rw [text, ← cons, Length.text]
  · rw [utf8ByteSize_ofList_of_ascii l.ascii_number]
  · rw [← cons]
    exact any_known_iff.2 l.known

theorem unitAt_of_zeroLengthUnit? {d : Declaration} {skip : List String} {w : Word}
    (word : w ∈ Value.words d.value skip) {i : Nat} (found : zeroLengthUnit? w = some i) :
    UnitAt d i := by
  obtain ⟨before, after, whole, offset⟩ := Value.in_of_mem_words word
  obtain ⟨number, c, unit, split, at', known⟩ := number_of_zeroLengthUnit? found
  refine ⟨before ++ number, c, unit, after, ?_, ?_, known⟩
  · rw [whole, split]
    simp
  · rw [at', utf8ByteSize_ofList_append, offset]

theorem unitAt_of_mem_zeroLengths {d : Declaration} {f : Finding} (mem : f ∈ zeroLengths d) :
    ∃ i, UnitAt d i ∧ f.pos = d.valuePosition i := by
  unfold zeroLengths at mem
  split at mem
  · cases mem
  · obtain ⟨w, word, found⟩ := List.mem_filterMap.1 mem
    obtain ⟨i, at', rfl⟩ := Option.map_eq_some_iff.1 found
    exact ⟨i, unitAt_of_zeroLengthUnit? word at', rfl⟩

theorem ne_newline_of_unit {c : Char} {unit : List Char}
    (known : lengthUnits.any (Text.eqIgnoringCase (String.ofList (c :: unit))) = true) : c ≠ '\n' := by
  rintro rfl
  obtain ⟨u, mem, same⟩ := List.any_eq_true.1 known
  rw [Text.eqIgnoringCase, String.toList_ofList, beq_iff_eq] at same
  have none : ∀ u ∈ lengthUnits, (Text.lowerAscii u.toList).head? ≠ some '\n' := by decide
  apply none u mem
  rw [← same]
  rfl

end Rule

end SheetLint
