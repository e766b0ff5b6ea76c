import SheetLint.Proofs.Indented.Values
import SheetLint.Proofs.Places

namespace SheetLint

/-! ## Flags and trimmed texts -/

def Flagged (cs : List Char) : Prop :=
  ∃ flag, flag <:+ cs ∧ Text.lowerAscii flag = importantFlag

theorem splitImportant_snd_iff (cs : List Char) : (splitImportant cs).2 = true ↔ Flagged cs := by
  constructor
  · intro flagged
    rcases splitImportant_cases cs with split | ⟨front, flag, rfl, same, -⟩
    · rw [split] at flagged
      cases flagged
    · exact ⟨flag, List.suffix_append front flag, same⟩
  · rintro ⟨flag, ⟨front, rfl⟩, same⟩
    rw [splitImportant_append front same]

theorem splitImportant_of_not_flagged {cs : List Char} (plain : ¬Flagged cs) :
    splitImportant cs = (cs, false) := by
  rcases splitImportant_cases cs with split | ⟨front, flag, rfl, same, -⟩
  · exact split
  · exact absurd ⟨flag, List.suffix_append front flag, same⟩ plain

theorem not_mem_flag {flag : List Char} (same : Text.lowerAscii flag = importantFlag) : '\n' ∉ flag := by
  intro newline
  have lower : '\n' ∈ Text.lowerAscii flag := List.mem_map_of_mem newline
  rw [same] at lower
  exact absurd lower (by decide)

theorem flag_length {flag : List Char} (same : Text.lowerAscii flag = importantFlag) :
    flag.length = 10 := by
  have := congrArg List.length same
  rwa [Text.lowerAscii, List.length_map] at this

theorem flagged_lines (front back : List Char) : Flagged (front ++ '\n' :: back) ↔ Flagged back := by
  have last : back <:+ front ++ '\n' :: back :=
    (List.suffix_cons '\n' back).trans (List.suffix_append front _)
  constructor
  · rintro ⟨flag, ends, same⟩
    rcases List.suffix_or_suffix_of_suffix ends (List.suffix_append front ('\n' :: back)) with
      within | beyond
    · rcases List.suffix_cons_iff.1 within with rfl | within
      · exact absurd List.mem_cons_self (not_mem_flag same)
      · exact ⟨flag, within, same⟩
    · exact absurd (beyond.subset List.mem_cons_self) (not_mem_flag same)
  · rintro ⟨flag, ends, same⟩
    exact ⟨flag, ends.trans last, same⟩

/-- Whether the value and the flag of a declaration are those of a raw value: it is flagged if the raw
value ends with the flag, and its value is the raw one without the blanks around it and that flag. -/
structure Normalised (raw : List Char) (d : Declaration) : Prop where
  important : d.important = true ↔ Flagged (Text.trim raw)
  trimmed : Text.trim d.value.toList = d.value.toList
  plain : ¬Flagged (Text.trim raw) → d.value.toList = Text.trim raw
  cut : ∀ front flag, Text.trim raw = front ++ flag → Text.lowerAscii flag = importantFlag →
    d.value.toList = Text.trimEnd front

theorem normalised_iff {raw : List Char} {d : Declaration} :
    Normalised raw d ↔ (d.value.toList, d.important) = splitImportant (Text.trim raw) := by
  constructor
  · intro h
    by_cases flagged : Flagged (Text.trim raw)
    · obtain ⟨flag, ⟨front, whole⟩, same⟩ := flagged
      have split := splitImportant_append front same
      rw [whole] at split
      rw [split, h.cut front flag whole.symm same,
        h.important.2 ⟨flag, ⟨front, whole⟩, same⟩]
    · rw [splitImportant_of_not_flagged flagged, h.plain flagged,
        Bool.eq_false_iff.2 (mt h.important.1 flagged)]
  · intro h
    have value : d.value.toList = (splitImportant (Text.trim raw)).1 := congrArg Prod.fst h
    have important : d.important = (splitImportant (Text.trim raw)).2 := congrArg Prod.snd h
    constructor
    · rw [important, splitImportant_snd_iff]
    · rw [value]
      rcases splitImportant_cases (Text.trim raw) with split | ⟨front, flag, whole, same, split⟩
      · rw [split]
        exact Text.trimWhile_idem raw
      · have short : Text.trimEnd front <+: Text.trim raw :=
          (Text.dropEndWhile_isPrefix front).trans ⟨flag, whole.symm⟩
        rw [split]
        exact (Text.trimWhile_of_isPrefix short).trans (Text.dropEndWhile_idem front)
    · intro plain
      rw [value, splitImportant_of_not_flagged plain]
    · intro front flag whole same
      rw [value, whole, splitImportant_append front same]

namespace Indented

/-! ## Values over several lines -/

def below (inner : List Entry) : List Char :=
  inner.flatMap fun r => '\n' :: Text.trimEnd r.raw

theorem below_concat (inner : List Entry) (last : Entry) :
    below (inner ++ [last]) = below inner ++ '\n' :: Text.trimEnd last.raw := by
  simp [below]

structure Plain (rest : List Char) (inner : List Entry) : Prop where
  visible : Text.trim rest ≠ []
  first : ¬Flagged (Text.trim rest)
  last : ∀ r ∈ inner.getLast?, ¬Flagged (Text.trimEnd r.raw)

section Lines

variable {rest : List Char} {inner : List Entry} {last : Entry} {d : Declaration}

theorem trim_append_below (visible : Text.trim rest ≠ []) (ended : Text.trimEnd last.raw ≠ []) :
    Text.trim (rest ++ below (inner ++ [last])) =
      rest.dropWhile Text.isBlank ++ below (inner ++ [last]) := by
  have starts : (rest ++ below (inner ++ [last])).dropWhile Text.isBlank =
      rest.dropWhile Text.isBlank ++ below (inner ++ [last]) := by
    rw [List.dropWhile_append, if_neg]
    intro empty
    apply visible
    rw [Text.trim, Text.trimWhile, List.isEmpty_iff.1 empty]
    rfl
  have ends : Text.dropEndWhile Text.isBlank (Text.trimEnd last.raw) = Text.trimEnd last.raw :=
    Text.dropEndWhile_idem last.raw
  have split : rest.dropWhile Text.isBlank ++ below (inner ++ [last]) =
      (rest.dropWhile Text.isBlank ++ below inner ++ ['\n']) ++ Text.trimEnd last.raw := by
    simp [below_concat]
  rw [Text.trim, Text.trimWhile, starts, split, Text.dropEndWhile_append, ends]
  rwa [ends]

theorem trim_of_ended (visible : Text.trim rest ≠ []) (ended : Text.trimEnd rest = rest) :
    Text.trim rest = rest.dropWhile Text.isBlank := by
  have split : Text.trimEnd (rest.takeWhile Text.isBlank ++ rest.dropWhile Text.isBlank) =
      rest.takeWhile Text.isBlank ++ Text.trim rest := Text.dropEndWhile_append visible
  rw [List.takeWhile_append_dropWhile, ended] at split
  conv_lhs at split => rw [← List.takeWhile_append_dropWhile (p := Text.isBlank) (l := rest)]
  exact (List.append_cancel_left split).symm

theorem normalised_plain {raw : List Char} (value : d.value.toList = Text.trim raw)
    (important : d.important = false) : Normalised raw d ↔ ¬Flagged (Text.trim raw) := by
  constructor
  · intro h flagged
    have := h.important.2 flagged
    rw [important] at this
    cases this
  · intro plain
    rw [normalised_iff, value, important, splitImportant_of_not_flagged plain]

theorem not_normalised_of_blank {raw : List Char} {more : List Char}
    (value : d.value.toList = '\n' :: more) : ¬Normalised raw d := by
  intro h
  have visible : Text.isBlank '\n' = false :=
    Text.not_of_trimWhile_eq_cons ((h.trimmed.trans value))
  exact absurd visible (by decide)

theorem not_normalised_of_flag {raw front flag more : List Char} (plain : '\n' ∉ front ++ flag)
    (same : Text.lowerAscii flag = importantFlag)
    (whole : Text.trim raw = (front ++ flag) ++ '\n' :: more)
    (value : d.value.toList = Text.trimEnd front ++ '\n' :: more) : ¬Normalised raw d := by
  intro h
  obtain ⟨cut, split⟩ : d.value.toList <+: Text.trim raw := by
    rw [show d.value.toList = _ from congrArg Prod.fst (normalised_iff.1 h)]
    exact splitImportant_isPrefix _
  have short : Text.trimEnd front <+: front := Text.dropEndWhile_isPrefix front
  have plain' : '\n' ∉ Text.trimEnd front := by
    intro newline
    exact plain (List.mem_append_left flag (short.subset newline))
  rw [value, whole, List.append_assoc, List.cons_append] at split
  have lines := congrArg (List.splitOn '\n') split
  rw [List.splitOn_append_cons_self_of_not_mem plain',
    List.splitOn_append_cons_self_of_not_mem plain] at lines
  have first : Text.trimEnd front = front ++ flag := (List.cons.inj lines).1
  have longer := short.length_le
  rw [first, List.length_append, flag_length same] at longer
  omega

theorem normalised_continued {first : Declaration} (plain : '\n' ∉ rest)
    (ended : Text.trimEnd rest = rest) (visible : ∀ r ∈ inner, Text.trimEnd r.raw ≠ [])
    (said : (first.value.toList, first.important) = splitImportant (Text.trim rest)) :
    Normalised (rest ++ below inner) (continued first inner) ↔ inner = [] ∨ Plain rest inner := by
  have value : (continued first inner).value.toList =
      (splitImportant (Text.trim rest)).1 ++ below inner := by
    rw [toList_continued, show first.value.toList = _ from congrArg Prod.fst said]
    rfl
  have important : (continued first inner).important = (splitImportant (Text.trim rest)).2 :=
    congrArg Prod.snd said
  obtain rfl | ⟨init, last, rfl⟩ := List.eq_nil_or_concat' inner
  · refine iff_of_true (normalised_iff.2 ?_) (.inl rfl)
    rw [value, important, below, List.flatMap_nil, List.append_nil, List.append_nil]
  have several : init ++ [last] ≠ [] := by simp
  have ended' := visible last (by simp)
  rw [or_iff_right several]
  obtain ⟨more, starts⟩ : ∃ more, below (init ++ [last]) = '\n' :: more := by
    cases init <;> exact ⟨_, rfl⟩
  by_cases empty : Text.trim rest = []
  · have newline : (continued first (init ++ [last])).value.toList = '\n' :: more := by
      rw [value, empty, starts]
      rfl
    exact iff_of_false (not_normalised_of_blank newline) fun h => h.visible empty
  have raw : Text.trim (rest ++ below (init ++ [last])) = Text.trim rest ++ below (init ++ [last]) := by
    rw [trim_append_below empty ended', trim_of_ended empty ended]
  rcases splitImportant_cases (Text.trim rest) with split | ⟨front, flag, whole, same, split⟩
  · have unflagged : ¬Flagged (Text.trim rest) := by
      rw [← splitImportant_snd_iff, split]
      exact Bool.false_ne_true
    rw [split] at value important
    have last' : Flagged (Text.trim (rest ++ below (init ++ [last]))) ↔
        Flagged (Text.trimEnd last.raw) := by
      rw [raw, below_concat, ← List.append_assoc, flagged_lines]
    rw [normalised_plain (by rw [value, raw]) important, last']
    constructor
    · intro h
      refine ⟨empty, unflagged, ?_⟩
      simpa using h
    · intro h
      exact h.last last (by simp)
  · have plain' : '\n' ∉ front ++ flag := by
      rw [← whole]
      exact fun newline => plain ((Text.trimWhile_isInfix rest).subset newline)
    rw [split, starts] at value
    rw [starts, whole] at raw
    rw [starts]
    apply iff_of_false (not_normalised_of_flag plain' same raw value)
    exact fun h => h.first ⟨flag, whole ▸ List.suffix_append front flag, same⟩

end Lines

/-! ## Entries -/

theorem trimEnd_rest {content before rest : List Char} (ended : Text.trimEnd content = content)
    (cut : splitColon? content = some (before, rest)) : Text.trimEnd rest = rest := by
  have split : content = before ++ ':' :: rest := eq_of_splitColon? cut
  rw [split, Text.trimEnd, Text.dropEndWhile_append_cons (by decide)] at ended
  exact (List.cons.inj (List.append_cancel_left ended)).2

theorem first_of_declaration? {content : List Char} {start : Position} {d : Declaration}
    (h : declaration? content start = some d) :
    ∃ before rest, splitColon? content = some (before, rest) ∧ d.prop.toList = Text.trim before ∧
      (d.value.toList, d.important) = splitImportant (Text.trim rest) := by
  unfold declaration? at h
  split at h
  · cases h
  next before rest cut =>
    simp only at h
    split at h
    · cases h
    · cases h
      exact ⟨before, rest, cut, by simp, by simp⟩

/-- How a declaration follows from the entries that it is made of. The value is that of the first line,
with the deeper lines put behind it, and the flag is the one on the first line. -/
structure Composed (d : Declaration) (e : Entry) (inner : List Entry) (before rest : List Char) :
    Prop where
  cut : splitColon? (Text.trimEnd (e.raw.dropWhile isIndent)) = some (before, rest)
  prop : d.prop.toList = Text.trim before
  value : d.value.toList = (splitImportant (Text.trim rest)).1 ++ below inner
  important : d.important = (splitImportant (Text.trim rest)).2
  normalised : Normalised (rest ++ below inner) d ↔ inner = [] ∨ Plain rest inner

def ComposedOf (text : List Char) (sheet : Sheet) : Prop :=
  ∃ es, entries text = .ok es ∧ ∀ d ∈ sheet.declarations, ∃ e inner, MadeOf es d e inner ∧
    ∃ before rest, Composed d e inner before rest

theorem MadeOf.composed {es : List Entry} {d : Declaration} {e : Entry} {inner : List Entry}
    (h : MadeOf es d e inner) {line : Line} (origin : e.From line) {text : List Char} (here : e.In text)
    (visible : ∀ r ∈ inner, Text.trimEnd r.raw ≠ []) :
    ∃ before rest, Composed d e inner before rest := by
  obtain ⟨first, kind, rfl⟩ := h.made
  obtain ⟨lines, after, read⟩ := origin.kind
  rw [kind] at read
  obtain ⟨before, rest, cut, prop, said⟩ := first_of_declaration? (declaration_of_kindOf read)
  rw [← origin.raw] at cut
  refine ⟨before, rest, cut, prop, ?_, congrArg Prod.snd said, ?_⟩
  · rw [toList_continued, show first.value.toList = _ from congrArg Prod.fst said]
    rfl
  · refine normalised_continued ?_ (trimEnd_rest (Text.dropEndWhile_idem _) cut) visible said
    intro newline
    have among : '\n' ∈ Text.trimEnd (e.raw.dropWhile isIndent) := by
      rw [eq_of_splitColon? cut]
      exact List.mem_append_right before (.tail _ newline)
    exact here.plain ((List.dropWhile_suffix isIndent).subset
      ((Text.dropEndWhile_isPrefix _).subset among))

theorem parse_normalised {text : String} {sheet : Sheet}
    (parsed : Dialect.sugarss.parse text = .ok sheet) :
    ComposedOf (Text.dropByteOrderMark text.toList) sheet := by
  obtain ⟨es, scanned, made⟩ := entries_of_parse parsed
  refine ⟨es, scanned, ?_⟩
  intro d mem
  obtain ⟨e, inner, h⟩ := madeOf_of_nodesOf made (Sheet.mem_declarations.1 mem)
  have among := h.mem e List.mem_cons_self
  obtain ⟨line, -, origin⟩ := from_of_mem_entriesOf none _ es scanned e among
  refine ⟨e, inner, h, h.composed origin (in_of_mem_entries scanned e among) ?_⟩
  intro r mem
  have kept := content_ne_nil none _ es scanned r (h.mem r (.tail _ mem))
  rw [r.trimEnd_raw kept]
  exact List.append_ne_nil_of_right_ne_nil _ kept

theorem parse_normalised_line :
    Dialect.sugarss.parse "a: b !Important" = .ok ⟨[.declaration ⟨"a", "b", true, ⟨1, 1⟩, ⟨1, 4⟩⟩]⟩ ∧
    ComposedOf (Text.dropByteOrderMark "a: b !Important".toList)
      ⟨[.declaration ⟨"a", "b", true, ⟨1, 1⟩, ⟨1, 4⟩⟩]⟩ := by
  have lines : linesOf (Text.dropByteOrderMark "a: b !Important".toList) =
      [⟨1, "a: b !Important".toList⟩] := by decide
  have read : kindOf (Text.trimEnd ("a: b !Important".toList.dropWhile isIndent)) ⟨1, 1⟩ [] =
      .ok (.declaration ⟨"a", "b", true, ⟨1, 1⟩, ⟨1, 4⟩⟩, []) := by decide
  have scanned : entries (Text.dropByteOrderMark "a: b !Important".toList) = .ok
      [⟨0, ⟨1, 1⟩, "a: b !Important".toList, .declaration ⟨"a", "b", true, ⟨1, 1⟩, ⟨1, 4⟩⟩⟩] := by
    rw [entries, lines, entriesOf_cons rfl rfl read, entriesOf]
    rfl
  have parsed : Dialect.sugarss.parse "a: b !Important" =
      .ok ⟨[.declaration ⟨"a", "b", true, ⟨1, 1⟩, ⟨1, 4⟩⟩]⟩ := by
    rw [parse_of_entries scanned]
    simp [nodesOf, continued, Except.map]
  exact ⟨parsed, parse_normalised parsed⟩

/-- A flag on the second line of a value stays in it, and a value below an empty line begins with a
newline. -/
theorem parse_not_normalised :
    (∃ d, Dialect.sugarss.parse "a: b\n c !important" = .ok ⟨[.declaration d]⟩ ∧
      Flagged (Text.trim " b\n c !important".toList) ∧ d.important = false) ∧
    ∃ d, Dialect.sugarss.parse "a:\n b" = .ok ⟨[.declaration d]⟩ ∧
      Text.trim d.value.toList ≠ d.value.toList := by
  have lines : linesOf (Text.dropByteOrderMark "a: b\n c !important".toList) =
      [⟨1, "a: b".toList⟩, ⟨2, " c !important".toList⟩] := by decide
  have below : kindOf (Text.trimEnd (" c !important".toList.dropWhile isIndent)) ⟨2, 2⟩ [] =
      .ok (.selector "c !important", []) := by decide
  have scanned : entries (Text.dropByteOrderMark "a: b\n c !important".toList) = .ok
      [⟨0, ⟨1, 1⟩, "a: b".toList, .declaration ⟨"a", "b", false, ⟨1, 1⟩, ⟨1, 4⟩⟩⟩,
        ⟨1, ⟨2, 2⟩, " c !important".toList, .selector "c !important"⟩] := by
    rw [entries, lines, entriesOf_cons rfl rfl rfl, entriesOf_cons rfl rfl below, entriesOf]
    rfl
  have lines' : linesOf (Text.dropByteOrderMark "a:\n b".toList) =
      [⟨1, "a:".toList⟩, ⟨2, " b".toList⟩] := by decide
  have scanned' : entries (Text.dropByteOrderMark "a:\n b".toList) = .ok
      [⟨0, ⟨1, 1⟩, "a:".toList, .declaration ⟨"a", "", false, ⟨1, 1⟩, ⟨1, 3⟩⟩⟩,
        ⟨1, ⟨2, 2⟩, " b".toList, .selector "b"⟩] := by
    rw [entries, lines', entriesOf_cons rfl rfl rfl, entriesOf_cons rfl rfl rfl, entriesOf]
    rfl
  constructor
  · refine ⟨⟨"a", "b\n c !important", false, ⟨1, 1⟩, ⟨1, 4⟩⟩, ?_, ?_, rfl⟩
    · rw [parse_of_entries scanned]
      simp [nodesOf, continued, Except.map]
      decide
    · exact ⟨"!important".toList, by decide, by decide⟩
  · refine ⟨⟨"a", "\n b", false, ⟨1, 1⟩, ⟨1, 3⟩⟩, ?_, by decide⟩
    rw [parse_of_entries scanned']
    simp [nodesOf, continued, Except.map]
    decide

end Indented

end SheetLint
