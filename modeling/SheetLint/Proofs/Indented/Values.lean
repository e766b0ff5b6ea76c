import SheetLint.Proofs.Indented.Alignment
import SheetLint.Proofs.Source
import SheetLint.Proofs.Text.Trim
import SheetLint.Proofs.Value.Words

/-!
Where the values of an indented sheet stand. A value is put together from the rest of its own line
and the deeper lines after it, and places in it are computed as if these lines followed one another in
the source. They do unless a blank line or the rest of a comment lies between them; then each place
is in the right column, and its line is the one that the entry would have without the gaps.
-/

namespace SheetLint

namespace Indented

/-! ## Lines of a text -/

theorem splitLines_eq_splitOn (text : List Char) : splitLines text = text.splitOn '\n' := by
  induction text with
  | nil => rfl
  | cons c cs ih =>
    rw [List.splitOn_cons_eq_if_modifyHead, ← ih]
    simp only [beq_iff_eq]
    rfl

theorem not_mem_of_mem_splitLines (text : List Char) : ∀ row ∈ splitLines text, '\n' ∉ row := by
  induction text with
  | nil => simp [splitLines]
  | cons c cs ih =>
    rw [splitLines_cons]
    split
    next newline => simpa using ih
    next visible =>
      cases rows : splitLines cs with
      | nil => simp
      | cons first rows =>
        rw [rows] at ih
        intro row mem
        rw [List.modifyHead_cons, List.mem_cons] at mem
        rcases mem with rfl | mem
        · have later := ih first List.mem_cons_self
          simp [Ne.symm visible, later]
        · exact ih row (.tail _ mem)

theorem dropReturn_isPrefix (row : List Char) : dropReturn row <+: row := by
  unfold dropReturn
  split
  · exact List.dropLast_prefix row
  · exact List.prefix_rfl

structure Line.Of (text : List Char) (line : Line) : Prop where
  plain : '\n' ∉ line.chars
  char : ∀ (j : Nat) (c : Char), line.chars[j]? = some c →
    charAt? text ⟨line.number, j + 1⟩ = some c

theorem of_mem_linesOf {text : List Char} {line : Line} (mem : line ∈ linesOf text) :
    line.Of text := by
  obtain ⟨⟨row, number⟩, numbered, rfl⟩ := List.mem_map.1 mem
  obtain ⟨i, found⟩ := List.mem_iff_getElem?.1 numbered
  rw [List.getElem?_zipIdx, Option.map_eq_some_iff] at found
  obtain ⟨row', there, same⟩ := found
  cases same
  obtain ⟨more, whole⟩ := dropReturn_isPrefix row
  constructor
  · intro newline
    apply not_mem_of_mem_splitLines text row (List.mem_of_getElem? there)
    rw [← whole]
    exact List.mem_append_left more newline
  · intro j c char
    have inside : row[j]? = some c := by
      obtain ⟨within, -⟩ := List.getElem?_eq_some_iff.1 char
      rw [← whole, List.getElem?_append_left within]
      exact char
    rw [splitLines_eq_splitOn] at there
    rw [Nat.add_comm 1 i, charAt?, there]
    exact inside

/-! ## Entries -/

theorem eq_of_splitColon? {cs : List Char} {r : List Char × List Char}
    (h : splitColon? cs = some r) : cs = r.1 ++ ':' :: r.2 := by
  induction cs generalizing r with
  | nil => cases h
  | cons c cs ih =>
    rw [splitColon?] at h
    split at h
    next colon =>
      cases h
      rw [colon.1]
      rfl
    next =>
      obtain ⟨r', found, rfl⟩ := Option.map_eq_some_iff.1 h
      rw [ih found]
      rfl

theorem value_of_declaration? {content : List Char} {start : Position} {d : Declaration}
    (h : declaration? content start = some d) :
    ∃ lead more, content = lead ++ (d.value.toList ++ more) ∧ d.valueStart = start.advance lead := by
  unfold declaration? at h
  split at h
  · cases h
  next before after cut =>
    simp only at h
    split at h
    · cases h
    · cases h
      have value : (splitImportant (Text.trim after)).1 <+: after.dropWhile Text.isBlank :=
        (splitImportant_isPrefix _).trans (Text.dropEndWhile_isPrefix _)
      obtain ⟨more, rest⟩ := value
      refine ⟨before ++ ':' :: after.takeWhile Text.isBlank, more, ?_, rfl⟩
      rw [String.toList_ofList, rest, List.append_assoc, List.cons_append,
        List.takeWhile_append_dropWhile]
      exact eq_of_splitColon? cut

structure Entry.In (text : List Char) (e : Entry) : Prop where
  plain : '\n' ∉ e.raw
  char : ∀ (j : Nat) (c : Char), e.raw[j]? = some c → charAt? text ⟨e.start.line, j + 1⟩ = some c
  value : ∀ d, e.kind = .declaration d → ∃ before after,
    e.raw = before ++ (d.value.toList ++ after) ∧
      d.valueStart = ⟨e.start.line, before.length + 1⟩

theorem Entry.From.in_ {text : List Char} {e : Entry} {line : Line} (origin : e.From line)
    (here : line.Of text) : e.In text := by
  constructor
  · rw [origin.raw]
    exact here.plain
  · rw [origin.raw, origin.start]
    exact here.char
  · intro d kind
    obtain ⟨lines, rest, read⟩ := origin.kind
    rw [kind] at read
    obtain ⟨lead, more, content, start⟩ := value_of_declaration? (declaration_of_kindOf read)
    obtain ⟨blanks, trimmed⟩ : Text.trimEnd (line.chars.dropWhile isIndent) <+:
        line.chars.dropWhile isIndent := Text.dropEndWhile_isPrefix _
    have visible : line.chars.dropWhile isIndent = lead ++ (d.value.toList ++ more) ++ blanks := by
      rw [← content, trimmed]
    have whole : e.raw =
        (line.chars.takeWhile isIndent ++ lead) ++ (d.value.toList ++ (more ++ blanks)) :=
      calc e.raw
        _ = line.chars.takeWhile isIndent ++ line.chars.dropWhile isIndent := by
          rw [origin.raw, List.takeWhile_append_dropWhile]
        _ = _ := by
          rw [visible]
          simp
    refine ⟨_, _, whole, ?_⟩
    have plain : '\n' ∉ lead := by
      intro newline
      apply here.plain
      rw [← origin.raw, whole]
      simp [newline]
    rw [start, Position.advance_of_not_mem plain, origin.start, origin.indent, List.length_append]
    simp only [Position.mk.injEq, true_and]
    omega

theorem in_of_mem_entries {text : List Char} {es : List Entry} (scanned : entries text = .ok es) :
    ∀ e ∈ es, e.In text := by
  intro e mem
  obtain ⟨line, within, origin⟩ := from_of_mem_entriesOf none _ es scanned e mem
  exact origin.in_ (of_mem_linesOf within)

/-! ## Values over several lines -/

theorem toList_continued (d : Declaration) (inner : List Entry) :
    (continued d inner).value.toList =
      d.value.toList ++ inner.flatMap fun e => '\n' :: Text.trimEnd e.raw := by
  induction inner generalizing d with
  | nil => simp [continued]
  | cons e inner ih =>
    have step : continued d (e :: inner) =
        continued { d with value := d.value ++ "\n" ++ String.ofList (Text.trimEnd e.raw) } inner :=
      rfl
    rw [step, ih]
    simp

theorem splitOn_flatMap {v : List Char} {rows : List (List Char)} (plain : '\n' ∉ v)
    (plains : ∀ row ∈ rows, '\n' ∉ row) :
    (v ++ rows.flatMap ('\n' :: ·)).splitOn '\n' = v :: rows := by
  induction rows generalizing v with
  | nil => simp [List.splitOn_eq_singleton plain]
  | cons row rows ih =>
    rw [List.flatMap_cons, List.cons_append, List.splitOn_append_cons_self_of_not_mem plain,
      ih (plains row List.mem_cons_self) fun r mem => plains r (.tail _ mem)]

structure MadeOf (es : List Entry) (d : Declaration) (e : Entry) (inner : List Entry) : Prop where
  among : ∃ before after, es = before ++ e :: (inner ++ after) ∧
    ∀ r ∈ after.head?, r.indent ≤ e.indent
  deeper : ∀ r ∈ inner, e.indent < r.indent
  made : ∃ first, e.kind = .declaration first ∧ d = continued first inner

theorem MadeOf.append {es : List Entry} {d : Declaration} {e : Entry} {inner : List Entry}
    (h : MadeOf es d e inner) (before : List Entry) {after : List Entry}
    (shallow : ∀ r ∈ after.head?, r.indent ≤ e.indent) :
    MadeOf (before ++ (es ++ after)) d e inner := by
  obtain ⟨before', after', rfl, last⟩ := h.among
  refine ⟨⟨before ++ before', after' ++ after, by simp, ?_⟩, h.deeper, h.made⟩
  cases after' with
  | nil => exact shallow
  | cons r after' => exact last

theorem MadeOf.mem {es : List Entry} {d : Declaration} {e : Entry} {inner : List Entry}
    (h : MadeOf es d e inner) : ∀ r ∈ e :: inner, r ∈ es := by
  obtain ⟨before, after, rfl, -⟩ := h.among
  intro r mem
  rw [← List.cons_append]
  exact List.mem_append_right before (List.mem_append_left after mem)

theorem madeOf_of_nodesOf {depth indent : Nat} {es : List Entry} {ns : List Node}
    (made : nodesOf depth indent es = .ok ns) {d : Declaration}
    (mem : .declaration d ∈ Node.walkAll ns) : ∃ e inner, MadeOf es d e inner := by
  revert mem
  refine nodesOf_induction ?_ ?_ made
  · intro depth indent mem
    cases mem
  · intro depth e inner outer n ns deep last node within later mem
    rcases List.mem_append.1 mem with mem | mem
    · cases makes_of_nodeOf node with
      | comment text inline => cases List.mem_singleton.1 mem
      | declaration kind =>
        cases List.mem_singleton.1 mem
        exact ⟨e, inner, ⟨[], outer, rfl, last⟩, deep, _, kind, rfl⟩
      | statement prelude => cases List.mem_singleton.1 mem
      | empty prelude opener => cases List.mem_singleton.1 mem
      | block prelude opener room inside =>
        rcases List.mem_cons.1 mem with same | mem
        · cases same
        · obtain ⟨e', inner', h⟩ := within _ _ _ inside mem
          refine ⟨e', inner', h.append [e] ?_⟩
          intro r head
          have := deep e' (h.mem e' List.mem_cons_self)
          exact Nat.le_of_lt (Nat.lt_of_le_of_lt (last r head) this)
    · obtain ⟨e', inner', h⟩ := later mem
      have extended : MadeOf (e :: inner ++ (outer ++ [])) d e' inner' := h.append _ (by simp)
      rw [List.append_nil] at extended
      exact ⟨e', inner', extended⟩

theorem splitOn_continued {text : List Char} {e : Entry} {first : Declaration} {inner : List Entry}
    (kind : e.kind = .declaration first) (here : ∀ r ∈ e :: inner, r.In text) :
    (continued first inner).value.toList.splitOn '\n' =
      first.value.toList :: inner.map fun r => Text.trimEnd r.raw := by
  have own := here e List.mem_cons_self
  obtain ⟨before, after, whole, -⟩ := own.value first kind
  have plain : '\n' ∉ first.value.toList := by
    intro newline
    apply own.plain
    rw [whole]
    simp [newline]
  have plains : ∀ row ∈ inner.map fun r => Text.trimEnd r.raw, '\n' ∉ row := by
    intro row mem newline
    obtain ⟨r, among, rfl⟩ := List.mem_map.1 mem
    exact (here r (.tail _ among)).plain ((Text.dropEndWhile_isPrefix _).subset newline)
  rw [toList_continued, ← splitOn_flatMap plain plains, List.flatMap_map]

/-- Whether the lines of a value are those of entries, one for each: a character of the value is found
in the column computed for it, on the line of its entry. -/
def RunsOver (source : List Char) (d : Declaration) (start : Position) (es : List Entry) : Prop :=
  ∀ i c, d.CharAt i c → c ≠ '\n' → ∃ j r, es[j]? = some r ∧
    (d.valuePosition i).line = start.line + j ∧
    charAt? source ⟨r.start.line, (d.valuePosition i).column⟩ = some c

theorem MadeOf.runsOver {source : List Char} {es : List Entry} {d : Declaration} {e : Entry}
    {inner : List Entry} (h : MadeOf es d e inner) (here : ∀ r ∈ es, r.In source) :
    RunsOver source d e.start (e :: inner) := by
  intro i c at' visible
  obtain ⟨first, kind, rfl⟩ := h.made
  have own : ∀ r ∈ e :: inner, r.In source := fun r mem => here r (h.mem r mem)
  obtain ⟨lead, rest, whole, start⟩ := (own e List.mem_cons_self).value first kind
  obtain ⟨before, after, cut, rfl⟩ := at'.split
  have start' : (continued first inner).valueStart = ⟨e.start.line, lead.length + 1⟩ := start
  obtain ⟨m, j, row, reached, found, char⟩ :=
    advance_eq_lookup (p := ⟨e.start.line, lead.length + 1⟩) visible before after
  rw [← cut, splitOn_continued kind own] at found
  rw [Declaration.valuePosition_eq cut, start', reached]
  cases m with
  | zero =>
    -- The value begins on the line of the declaration, after the first `lead` characters.
    cases found
    obtain ⟨within, -⟩ := List.getElem?_eq_some_iff.1 char
    refine ⟨0, e, rfl, rfl, ?_⟩
    rw [if_pos rfl, Nat.add_right_comm]
    apply (own e List.mem_cons_self).char
    rw [whole, List.getElem?_append_right (Nat.le_add_right _ _), Nat.add_sub_cancel_left,
      List.getElem?_append_left within]
    exact char
  | succ m =>
    rw [List.getElem?_cons_succ, List.getElem?_map, Option.map_eq_some_iff] at found
    obtain ⟨r, next, rfl⟩ := found
    obtain ⟨within, -⟩ := List.getElem?_eq_some_iff.1 char
    obtain ⟨blanks, trimmed⟩ : Text.trimEnd r.raw <+: r.raw := Text.dropEndWhile_isPrefix r.raw
    refine ⟨m + 1, r, next, rfl, ?_⟩
    rw [if_neg (Nat.succ_ne_zero m), Nat.add_comm 1 j]
    apply (own r (.tail _ (List.mem_of_getElem? next))).char
    rw [← trimmed, List.getElem?_append_left within]
    exact char

def Unbroken (es : List Entry) : Prop :=
  es.IsChain fun a b => b.start.line = a.start.line + 1

theorem Unbroken.line_eq {e : Entry} {es : List Entry} (h : Unbroken (e :: es)) {j : Nat} {r : Entry}
    (found : (e :: es)[j]? = some r) : r.start.line = e.start.line + j := by
  induction j generalizing e es with
  | zero =>
    cases found
    rfl
  | succ j ih =>
    cases es with
    | nil => cases found
    | cons f es =>
      obtain ⟨next, later⟩ := List.isChain_cons_cons.1 h
      rw [ih later found, next]
      omega

/-- Whether each character of a value but newlines is found at the place computed for it, and with
them what the rules on colors and on zero lengths point at. -/
structure ValueFound (source : List Char) (d : Declaration) : Prop where
  char : ∀ i c, d.CharAt i c → c ≠ '\n' → charAt? source (d.valuePosition i) = some c
  color : ∀ f ∈ Rule.malformedColors d, charAt? source f.pos = some '#'
  unit : ∀ f ∈ Rule.zeroLengths d, ∃ c unit, charAt? source f.pos = some c ∧
    Rule.lengthUnits.any (Text.eqIgnoringCase (String.ofList (c :: unit))) = true

theorem valueFound_of_char {source : List Char} {d : Declaration}
    (char : ∀ i c, d.CharAt i c → c ≠ '\n' → charAt? source (d.valuePosition i) = some c) :
    ValueFound source d := by
  refine ⟨char, ?_, ?_⟩
  · intro f mem
    obtain ⟨i, hash, pos⟩ := Rule.charAt_of_mem_malformedColors mem
    rw [pos]
    exact char i '#' hash (by decide)
  · intro f mem
    obtain ⟨i, ⟨before, c, unit, after, value, offset, known⟩, pos⟩ :=
      Rule.unitAt_of_mem_zeroLengths mem
    refine ⟨c, unit, ?_, known⟩
    rw [pos, offset]
    exact char _ c (Declaration.charAt_of_split value) (Rule.ne_newline_of_unit known)

theorem RunsOver.valueFound {source : List Char} {d : Declaration} {e : Entry} {inner : List Entry}
    (h : RunsOver source d e.start (e :: inner)) (unbroken : Unbroken (e :: inner)) :
    ValueFound source d := by
  apply valueFound_of_char
  intro i c at' visible
  obtain ⟨j, r, found, line, char⟩ := h i c at' visible
  rw [unbroken.line_eq found, ← line] at char
  exact char

theorem parse_of_entries {text : String} {es : List Entry}
    (scanned : entries (Text.dropByteOrderMark text.toList) = .ok es) :
    Dialect.sugarss.parse text = (nodesOf Sheet.maxNesting 0 es).map Sheet.mk := by
  rw [Dialect.parse, Dialect.flavor?]
  simp only [Indented.parse, scanned]

theorem entries_of_parse {text : String} {sheet : Sheet}
    (parsed : Dialect.sugarss.parse text = .ok sheet) :
    ∃ es, entries (Text.dropByteOrderMark text.toList) = .ok es ∧
      nodesOf Sheet.maxNesting 0 es = .ok sheet.nodes := by
  cases scanned : entries (Text.dropByteOrderMark text.toList) with
  | error e =>
    rw [Dialect.parse, Dialect.flavor?] at parsed
    simp only [Indented.parse, scanned] at parsed
    cases parsed
  | ok es =>
    rw [parse_of_entries scanned] at parsed
    obtain ⟨nodes, made, rfl⟩ := map_eq_ok_iff.1 parsed
    exact ⟨es, rfl, made⟩

/-- Every declaration of an indented sheet is made of entries, one for each line of its value. Each
character of the value stands in the column computed for it, on the line of its entry; if the entries
stand on lines that follow one another, this is the line computed for it. -/
theorem parse_values_found {text : String} {sheet : Sheet}
    (parsed : Dialect.sugarss.parse text = .ok sheet) :
    ∃ es, entries (Text.dropByteOrderMark text.toList) = .ok es ∧
      ∀ d ∈ sheet.declarations, ∃ e inner, MadeOf es d e inner ∧
        RunsOver (Text.dropByteOrderMark text.toList) d e.start (e :: inner) ∧
        (Unbroken (e :: inner) → ValueFound (Text.dropByteOrderMark text.toList) d) := by
  obtain ⟨es, scanned, made⟩ := entries_of_parse parsed
  refine ⟨es, scanned, ?_⟩
  intro d mem
  obtain ⟨n, among, declares⟩ := List.mem_filterMap.1 mem
  cases n with
  | declaration d' =>
    cases declares
    obtain ⟨e, inner, h⟩ := madeOf_of_nodesOf made among
    have runs := h.runsOver (in_of_mem_entries scanned)
    exact ⟨e, inner, h, runs, runs.valueFound⟩
  | comment _ => cases declares
  | statement _ _ => cases declares
  | block _ _ _ _ => cases declares

theorem parse_values_found_below :
    Dialect.sugarss.parse "a: 1\n 0px" = .ok ⟨[.declaration ⟨"a", "1\n 0px", false, ⟨1, 1⟩, ⟨1, 4⟩⟩]⟩ ∧
    ∃ es, entries (Text.dropByteOrderMark "a: 1\n 0px".toList) = .ok es ∧
      ∀ d ∈ [(⟨"a", "1\n 0px", false, ⟨1, 1⟩, ⟨1, 4⟩⟩ : Declaration)],
        ∃ e inner, MadeOf es d e inner ∧
          RunsOver (Text.dropByteOrderMark "a: 1\n 0px".toList) d e.start (e :: inner) ∧
          (Unbroken (e :: inner) →
            ValueFound (Text.dropByteOrderMark "a: 1\n 0px".toList) d) := by
  have lines : linesOf (Text.dropByteOrderMark "a: 1\n 0px".toList) =
      [⟨1, ['a', ':', ' ', '1']⟩, ⟨2, [' ', '0', 'p', 'x']⟩] := by decide
  have scanned : entries (Text.dropByteOrderMark "a: 1\n 0px".toList) = .ok
      [⟨0, ⟨1, 1⟩, ['a', ':', ' ', '1'], .declaration ⟨"a", "1", false, ⟨1, 1⟩, ⟨1, 4⟩⟩⟩,
        ⟨1, ⟨2, 2⟩, [' ', '0', 'p', 'x'], .selector "0px"⟩] := by
    rw [entries, lines, entriesOf_cons rfl rfl rfl, entriesOf_cons rfl rfl rfl, entriesOf]
    rfl
  have parsed : Dialect.sugarss.parse "a: 1\n 0px" =
      .ok ⟨[.declaration ⟨"a", "1\n 0px", false, ⟨1, 1⟩, ⟨1, 4⟩⟩]⟩ := by
    rw [parse_of_entries scanned]
    simp [nodesOf, continued, Except.map]
    decide
  exact ⟨parsed, parse_values_found parsed⟩

/-- Below a blank line the place computed for the unit of a zero length is one line too high. -/
theorem zeroLengths_after_blank_line :
    ∃ d, Dialect.sugarss.parse "a: 1\n\n 0px" = .ok ⟨[.declaration d]⟩ ∧
      Rule.zeroLengths d = [⟨⟨2, 3⟩, "Unexpected unit"⟩] ∧ Rule.UnitAt d 4 ∧ d.CharAt 4 'p' ∧
      d.valuePosition 4 = ⟨2, 3⟩ ∧
      charAt? (Text.dropByteOrderMark "a: 1\n\n 0px".toList) ⟨2, 3⟩ = none ∧
      charAt? (Text.dropByteOrderMark "a: 1\n\n 0px".toList) ⟨3, 3⟩ = some 'p' := by
  have lines : linesOf (Text.dropByteOrderMark "a: 1\n\n 0px".toList) =
      [⟨1, ['a', ':', ' ', '1']⟩, ⟨2, []⟩, ⟨3, [' ', '0', 'p', 'x']⟩] := by decide
  have scanned : entries (Text.dropByteOrderMark "a: 1\n\n 0px".toList) = .ok
      [⟨0, ⟨1, 1⟩, ['a', ':', ' ', '1'], .declaration ⟨"a", "1", false, ⟨1, 1⟩, ⟨1, 4⟩⟩⟩,
        ⟨1, ⟨3, 2⟩, [' ', '0', 'p', 'x'], .selector "0px"⟩] := by
    rw [entries, lines, entriesOf_cons rfl rfl rfl, entriesOf_blank rfl, entriesOf_cons rfl rfl rfl,
      entriesOf]
    rfl
  refine ⟨⟨"a", "1\n 0px", false, ⟨1, 1⟩, ⟨1, 4⟩⟩, ?_, ?_, ?_, ?_, ?_, ?_, ?_⟩
  · rw [parse_of_entries scanned]
    simp [nodesOf, continued, Except.map]
    decide
  · decide +kernel
  · exact ⟨['1', '\n', ' ', '0'], 'p', ['x'], [], by decide, by decide, by decide⟩
  · exact ⟨4, by decide, by decide⟩
  · decide
  · decide
  · decide

end Indented

end SheetLint
