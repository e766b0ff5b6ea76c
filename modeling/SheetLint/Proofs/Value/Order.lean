import SheetLint.Proofs.Value.Words

namespace SheetLint

def Word.stop (w : Word) : Nat :=
  w.offset + w.text.utf8ByteSize

namespace Value

structure InOrder (since : Nat) (ws : List Word) : Prop where
  late : ∀ w ∈ ws, since ≤ w.offset
  apart : ws.Pairwise fun v w => v.stop ≤ w.offset

theorem InOrder.nil {since : Nat} : InOrder since [] :=
  ⟨List.forall_mem_nil _, .nil⟩

theorem InOrder.mono {since later : Nat} {ws : List Word} (h : InOrder later ws)
    (le : since ≤ later) : InOrder since ws :=
  ⟨fun w mem => le.trans (h.late w mem), h.apart⟩

theorem InOrder.cons {w : Word} {ws : List Word} (h : InOrder w.stop ws) :
    InOrder w.offset (w :: ws) := by
  refine ⟨?_, .cons h.late h.apart⟩
  intro v mem
  rcases List.mem_cons.1 mem with rfl | mem
  · exact Nat.le_refl _
  · exact (Nat.le_add_right _ _).trans (h.late v mem)

def Mode.Reaches (offset : Nat) : Mode → Prop
  | .run start chars => start + (String.ofList chars.reverse).utf8ByteSize = offset
  | .string _ _ => True

def Mode.since (offset : Nat) : Mode → Nat
  | .run start _ => start
  | .string _ _ => offset

theorem inOrder_endRun {start offset : Nat} {chars : List Char} {is : List Item}
    (reaches : (Mode.run start chars).Reaches offset)
    (later : InOrder offset (is.filterMap Item.run?)) :
    InOrder start ((endRun start chars ++ is).filterMap Item.run?) := by
  have size : start + (String.ofList chars.reverse).utf8ByteSize = offset := reaches
  unfold endRun
  split
  · exact later.mono (by omega)
  · have ended : (⟨start, String.ofList chars.reverse⟩ : Word).stop ≤ offset := size.le
    exact (later.mono ended).cons

theorem inOrder_itemsFrom {offset : Nat} {mode : Mode} {rest : List Char}
    (reaches : mode.Reaches offset) :
    InOrder (mode.since offset) ((itemsFrom offset mode rest).filterMap Item.run?) := by
  induction rest generalizing offset mode with
  | nil =>
    cases mode with
    | run start chars =>
      rw [itemsFrom, ← List.append_nil (endRun start chars)]
      exact inOrder_endRun reaches .nil
    | string quote escaped => exact .nil
  | cons c rest ih =>
    have onward (mode : Mode) (reaches : mode.Reaches (offset + c.utf8Size))
        (since : mode.since (offset + c.utf8Size) = offset + c.utf8Size) :
        InOrder offset ((itemsFrom (offset + c.utf8Size) mode rest).filterMap Item.run?) :=
      (ih reaches).mono (by omega)
    have string (quote : Char) (escaped : Bool) := onward (.string quote escaped) trivial rfl
    have empty := onward (.run (offset + c.utf8Size) []) rfl rfl
    cases mode with
    | run start chars =>
      simp only [itemsFrom]
      split
      next separates =>
        apply inOrder_endRun reaches
        have gap : (itemOf c).run? = none := by
          unfold itemOf
          split_ifs <;> rfl
        rw [List.filterMap_cons_none gap]
        split
        · exact string c false
        · exact empty
      next inside =>
        have longer : (Mode.run start (c :: chars)).Reaches (offset + c.utf8Size) := by
          have size : start + (String.ofList chars.reverse).utf8ByteSize = offset := reaches
          rw [Mode.Reaches, List.reverse_cons, utf8ByteSize_ofList_append, utf8ByteSize_ofList_cons,
            ← size, Nat.add_assoc]
          rfl
        exact ih longer
    | string quote escaped =>
      simp only [itemsFrom, Mode.since]
      split_ifs
      · exact string quote false
      · exact string quote true
      · exact empty
      · exact string quote false

theorem words_pairwise (value : String) (skip : List String) :
    (words value skip).Pairwise fun v w => v.stop ≤ w.offset :=
  have begun : (Mode.run 0 []).Reaches 0 := rfl
  (inOrder_itemsFrom begun).apart.sublist (wordsIn_sublist skip [] (items value))

end Value

def Finding.Before (f g : Finding) : Prop :=
  f.pos.Before g.pos

namespace Rule

theorem lt_of_mem_malformedFrom {offset : Nat} {before : Option Char} {cs : List Char}
    {m : Nat × List Char} (mem : m ∈ malformedFrom offset before cs) :
    offset ≤ m.1 ∧ m.1 < offset + (String.ofList cs).utf8ByteSize := by
  obtain ⟨passed, more, rfl, size⟩ := hash_of_mem_malformedFrom mem
  rw [size, utf8ByteSize_ofList_append, utf8ByteSize_ofList_cons]
  have := Char.utf8Size_pos '#'
  omega

theorem malformedFrom_pairwise (offset : Nat) (before : Option Char) (cs : List Char) :
    (malformedFrom offset before cs).Pairwise fun m n => m.1 < n.1 := by
  fun_induction malformedFrom offset before cs with
  | case1 => exact .nil
  | case2 offset before c cs digits more color ih =>
    refine .cons ?_ ih
    intro m mem
    have := (lt_of_mem_malformedFrom mem).1
    have := c.utf8Size_pos
    omega
  | case3 offset before c cs digits more other ih => exact ih

theorem malformedColors_pairwise {d : Declaration} (increasing : d.Increasing) :
    (malformedColors d).Pairwise Finding.Before := by
  refine List.pairwise_flatMap.2 ⟨?_, ?_⟩
  · intro w word
    refine List.pairwise_map.2 ((malformedFrom_pairwise _ _ _).imp_of_mem ?_)
    intro m n first second lt
    exact increasing _ _ '#' '#' (charAt_of_mem_malformedFrom word first)
      (charAt_of_mem_malformedFrom word second) (by decide) (by decide) lt
  · refine (Value.words_pairwise d.value ["url"]).imp_of_mem ?_
    intro v w word word' apart f mem g mem'
    obtain ⟨m, first, rfl⟩ := List.mem_map.1 mem
    obtain ⟨n, second, rfl⟩ := List.mem_map.1 mem'
    have lt : m.1 < n.1 := by
      have early := (lt_of_mem_malformedFrom first).2
      rw [String.ofList_toList] at early
      exact early.trans_le (apart.trans (lt_of_mem_malformedFrom second).1)
    exact increasing _ _ '#' '#' (charAt_of_mem_malformedFrom word first)
      (charAt_of_mem_malformedFrom word' second) (by decide) (by decide) lt

theorem lt_of_zeroLengthUnit? {w : Word} {i : Nat} (found : zeroLengthUnit? w = some i) :
    w.offset ≤ i ∧ i < w.stop := by
  obtain ⟨number, c, unit, split, at', -⟩ := number_of_zeroLengthUnit? found
  rw [at', Word.stop, ← String.ofList_toList (s := w.text), split, utf8ByteSize_ofList_append,
    utf8ByteSize_ofList_cons]
  have := c.utf8Size_pos
  omega

theorem UnitAt.charAt {d : Declaration} {i : Nat} (h : UnitAt d i) :
    ∃ c, d.CharAt i c ∧ c ≠ '\n' := by
  obtain ⟨before, c, unit, after, value, rfl, known⟩ := h
  exact ⟨c, Declaration.charAt_of_split value, ne_newline_of_unit known⟩

theorem zeroLengths_pairwise {d : Declaration} (increasing : d.Increasing) :
    (zeroLengths d).Pairwise Finding.Before := by
  unfold zeroLengths
  split
  · exact .nil
  · refine List.pairwise_filterMap.2 ((Value.words_pairwise d.value _).imp_of_mem ?_)
    intro v w word word' apart f first g second
    obtain ⟨i, at', rfl⟩ := Option.map_eq_some_iff.1 first
    obtain ⟨j, at'', rfl⟩ := Option.map_eq_some_iff.1 second
    obtain ⟨b, char, visible⟩ := (unitAt_of_zeroLengthUnit? word at').charAt
    obtain ⟨c, char', visible'⟩ := (unitAt_of_zeroLengthUnit? word' at'').charAt
    have lt : i < j :=
      (lt_of_zeroLengthUnit? at').2.trans_le (apart.trans (lt_of_zeroLengthUnit? at'').1)
    exact increasing i j b c char char' visible visible' lt

end Rule

end SheetLint
