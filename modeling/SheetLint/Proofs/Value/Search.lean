import SheetLint.Proofs.Value.Comment

namespace SheetLint

def Position.spans (p : Position) (n : Nat) (q : Position) : Bool :=
  q.line == p.line && p.column ≤ q.column && q.column < p.column + n

namespace Rule

def search (find : Word → List (Nat × String)) (skip : List String) (d : Declaration) : List Finding :=
  (Value.words d.value skip).flatMap fun w => (find w).map fun m => ⟨d.valuePosition m.1, m.2⟩

/-- Whether what is found in a word moves with the word and stands at characters of it. -/
structure Confined (find : Word → List (Nat × String)) : Prop where
  shift : ∀ k w, find (w.shift k) = (find w).map fun m => (m.1 + k, m.2)
  inside : ∀ w, ∀ m ∈ find w, ∃ passed c more, w.text.toList = passed ++ c :: more ∧
    m.1 = w.offset + (String.ofList passed).utf8ByteSize

/-! ## Colors and lengths -/

def colorsIn (w : Word) : List (Nat × String) :=
  (malformedFrom w.offset none w.text.toList).map fun m =>
    (m.1, "Unexpected invalid hex color \"#" ++ String.ofList m.2 ++ "\"")

theorem malformedColors_eq_search (d : Declaration) :
    malformedColors d = search colorsIn ["url"] d := by
  simp only [malformedColors, search, colorsIn, List.map_map, Function.comp_def]

theorem malformedFrom_shift (k offset : Nat) (before : Option Char) (cs : List Char) :
    malformedFrom (offset + k) before cs =
      (malformedFrom offset before cs).map fun m => (m.1 + k, m.2) := by
  induction cs generalizing offset before with
  | nil => rfl
  | cons c cs ih =>
    have moved : offset + k + c.utf8Size = offset + c.utf8Size + k := Nat.add_right_comm _ _ _
    simp only [malformedFrom, moved, ih]
    split <;> rfl

theorem confined_colorsIn : Confined colorsIn where
  shift k w := by
    simp only [colorsIn, Word.shift, malformedFrom_shift, List.map_map, Function.comp_def]
  inside w m mem := by
    obtain ⟨found, among, rfl⟩ := List.mem_map.1 mem
    obtain ⟨passed, more, split, size⟩ := hash_of_mem_malformedFrom among
    exact ⟨passed, '#', more, split, size⟩

def unitsIn (w : Word) : List (Nat × String) :=
  (zeroLengthUnit? w).toList.map fun offset => (offset, "Unexpected unit")

theorem zeroLengths_eq_search (d : Declaration) :
    zeroLengths d = if "--".toList.isPrefixOf d.prop.toList then []
      else search unitsIn ["url", "calc", "var"] d := by
  rw [zeroLengths, search, List.filterMap_eq_flatMap_toList]
  congr 2
  funext w
  cases found : zeroLengthUnit? w <;> simp [unitsIn, found]

theorem confined_unitsIn : Confined unitsIn where
  shift k w := by
    unfold unitsIn zeroLengthUnit?
    simp only [Word.shift]
    split
    · split
      · simp [Nat.add_right_comm]
      · rfl
    · rfl
  inside w m mem := by
    obtain ⟨offset, found, rfl⟩ := List.mem_map.1 mem
    obtain ⟨number, c, unit, split, at', -⟩ := number_of_zeroLengthUnit? (Option.mem_toList.1 found)
    exact ⟨number, c, unit, split, at'⟩

/-! ## Around a comment -/

section Confined

variable {find : Word → List (Nat × String)} (confined : Confined find)

include confined

theorem Confined.cut {w : Word} {text : List Char} (within : w.In text) {m : Nat × String}
    (mem : m ∈ find w) : ∃ before c after, text = before ++ c :: after ∧
      m.1 = (String.ofList before).utf8ByteSize ∧ w.offset ≤ m.1 ∧ m.1 ≤ w.stop := by
  obtain ⟨before, after, rfl, offset⟩ := within
  obtain ⟨passed, c, more, split, at'⟩ := confined.inside w m mem
  refine ⟨before ++ passed, c, more ++ after, by simp [split], ?_, ?_, ?_⟩
  · rw [at', offset, utf8ByteSize_ofList_append]
  · omega
  · rw [at', Word.stop, ← String.ofList_toList (s := w.text), split, utf8ByteSize_ofList_append]
    omega

theorem Confined.valuePosition_before {d d' : Declaration} {before more more' : List Char}
    (value : d.value.toList = before ++ more) (value' : d'.value.toList = before ++ more')
    (start : d'.valueStart = d.valueStart) {w : Word} (within : w.In (before ++ ['/']))
    {m : Nat × String} (found : m ∈ find w) : d.valuePosition m.1 = d'.valuePosition m.1 := by
  obtain ⟨passed, c, rest, cut, at', -⟩ := confined.cut within found
  obtain ⟨later, rfl⟩ : passed <+: before := by
    apply List.prefix_of_prefix_length_le ⟨c :: rest, cut.symm⟩ (List.prefix_append before ['/'])
    have := congrArg List.length cut
    simp at this
    omega
  rw [List.append_assoc] at value value'
  rw [at', Declaration.valuePosition_eq value, Declaration.valuePosition_eq value', start]

theorem Confined.valuePosition_behind {d d' : Declaration} {front after : List Char}
    (value : d.value.toList = front ++ after) (value' : d'.value.toList = after)
    (start : d'.valueStart = d.valueStart.advance front) {w : Word} (within : w.In after)
    {m : Nat × String} (found : m ∈ find w) :
    d.valuePosition (m.1 + (String.ofList front).utf8ByteSize) = d'.valuePosition m.1 := by
  obtain ⟨passed, c, rest, rfl, at', -⟩ := confined.cut within found
  rw [← List.append_assoc] at value
  rw [at', Nat.add_comm, ← utf8ByteSize_ofList_append, Declaration.valuePosition_eq value,
    Declaration.valuePosition_eq value', Position.advance_append, start]

end Confined

theorem prefix_of_utf8ByteSize_le {xs ys zs : List Char} (h : xs <+: zs) (h' : ys <+: zs)
    (le : (String.ofList xs).utf8ByteSize ≤ (String.ofList ys).utf8ByteSize) : xs <+: ys := by
  rcases List.prefix_or_prefix_of_prefix h h' with h | ⟨more, rfl⟩
  · exact h
  · cases more with
    | nil => simp
    | cons c more =>
      rw [utf8ByteSize_ofList_append, utf8ByteSize_ofList_cons] at le
      have := c.utf8Size_pos
      omega

section Comment

open Value (comment)

variable {d : Declaration} {before body after : List Char}

theorem spans_of_offset (value : d.value.toList = before ++ comment body ++ after) (plain : '\n' ∉ body)
    {passed rest : List Char} (cut : d.value.toList = passed ++ rest)
    (since : (String.ofList before).utf8ByteSize + 1 ≤ (String.ofList passed).utf8ByteSize)
    (stop : (String.ofList passed).utf8ByteSize ≤ (String.ofList before).utf8ByteSize + 1 +
      (String.ofList ('*' :: body ++ ['*'])).utf8ByteSize) :
    (d.valueStart.advance before).spans (body.length + 4)
      (d.valuePosition (String.ofList passed).utf8ByteSize) := by
  have here : passed <+: d.value.toList := ⟨rest, cut.symm⟩
  have opening : before ++ ['/'] <+: d.value.toList := by
    rw [value]
    exact ⟨'*' :: body ++ ['*', '/'] ++ after, by simp [comment]⟩
  have closing : before ++ '/' :: ('*' :: body ++ ['*']) <+: d.value.toList := by
    rw [value]
    exact ⟨'/' :: after, by simp [comment]⟩
  obtain ⟨more, rfl⟩ : before ++ ['/'] <+: passed := by
    apply prefix_of_utf8ByteSize_le opening here
    rw [utf8ByteSize_ofList_append]
    exact since
  have inside : more <+: '*' :: body ++ ['*'] := by
    have whole : before ++ ['/'] ++ more <+: before ++ '/' :: ('*' :: body ++ ['*']) := by
      apply prefix_of_utf8ByteSize_le here closing
      rw [utf8ByteSize_ofList_append _ ('/' :: _), utf8ByteSize_ofList_cons, ← Nat.add_assoc]
      exact stop
    rw [List.append_assoc, List.prefix_append_right_inj] at whole
    exact (List.cons_prefix_cons.1 whole).2
  have plain' : '\n' ∉ '/' :: more := by
    intro mem
    have mem' : '\n' ∈ '*' :: body ++ ['*'] :=
      inside.subset ((List.mem_cons.1 mem).resolve_left (by decide))
    simp [plain] at mem'
  have short : more.length ≤ body.length + 2 := by simpa using inside.length_le
  rw [Declaration.valuePosition_eq cut, List.append_assoc, List.singleton_append,
    Position.advance_append, Position.advance_of_not_mem plain']
  simp only [Position.spans, List.length_cons, beq_self_eq_true, Bool.true_and, Bool.and_eq_true,
    decide_eq_true_eq]
  omega

theorem length_comment (body : List Char) : (comment body).length = body.length + 4 := by
  simp [comment]

theorem search_split {find : Word → List (Nat × String)} (confined : Confined find)
    (skip : List String) (start : Position) (before after : List Char) (n : Nat) :
    ∃ front rest : List Finding, ∀ (d : Declaration) (body : List Char),
      d.value.toList = before ++ comment body ++ after → d.valueStart = start → Unmarked body →
      '\n' ∉ body → body.length = n →
      ∃ inner : List Finding, (∀ f ∈ inner, (start.advance before).spans (n + 4) f.pos) ∧
        search find skip d = front ++ (inner ++ rest) := by
  obtain ⟨front, rest, early, late, eq⟩ := Value.words_comment before after skip
  -- What is found before and behind the comment is written down without a comment.
  let first : Declaration := ⟨"", String.ofList before, false, start, start⟩
  let last : Declaration := ⟨"", String.ofList after, false, start,
    ⟨(start.advance before).line, (start.advance before).column + (n + 4)⟩⟩
  refine ⟨front.flatMap fun w => (find w).map fun m => ⟨first.valuePosition m.1, m.2⟩,
    rest.flatMap fun w => (find w).map fun m => ⟨last.valuePosition m.1, m.2⟩, ?_⟩
  rintro d body value rfl unmarked plain rfl
  obtain ⟨inner, within, words⟩ := eq body unmarked
  have words' : Value.words d.value skip = front ++ (inner ++ rest.map
      (Word.shift (String.ofList (before ++ comment body)).utf8ByteSize)) := by
    rw [← String.ofList_toList (s := d.value), value, words]
  have before' : ∀ w ∈ front, ∀ m ∈ find w, d.valuePosition m.1 = first.valuePosition m.1 := by
    have alone : first.value.toList = before ++ [] := by simp [first]
    rw [List.append_assoc] at value
    exact fun w mem m => confined.valuePosition_before value alone rfl (early w mem)
  have behind : ∀ w ∈ rest, ∀ m ∈ find w,
      d.valuePosition (m.1 + (String.ofList (before ++ comment body)).utf8ByteSize) =
        last.valuePosition m.1 := by
    have alone : last.value.toList = after := String.toList_ofList
    have plain' : '\n' ∉ comment body := by simp [comment, plain]
    have begins : last.valueStart = d.valueStart.advance (before ++ comment body) := by
      rw [Position.advance_append, Position.advance_of_not_mem plain', length_comment]
    exact fun w mem m => confined.valuePosition_behind value alone begins (late w mem)
  refine ⟨inner.flatMap fun w => (find w).map fun m => ⟨d.valuePosition m.1, m.2⟩, ?_, ?_⟩
  · intro f mem
    obtain ⟨w, word, mem⟩ := List.mem_flatMap.1 mem
    obtain ⟨m, found, rfl⟩ := List.mem_map.1 mem
    have among : w ∈ Value.words d.value skip := by simp [words', word]
    have here : w.In d.value.toList := Value.in_of_mem_words among
    obtain ⟨passed, c, more, cut, at', since, stop⟩ := confined.cut here found
    obtain ⟨since', stop'⟩ := within w word
    have spans := spans_of_offset value plain cut (by omega) (by omega)
    rw [← at'] at spans
    exact spans
  · rw [search, words', List.flatMap_append, List.flatMap_append, List.flatMap_map]
    congr 1
    · exact List.flatMap_congr fun w mem => List.map_congr_left fun m found => by
        rw [before' w mem m found]
    congr 1
    refine List.flatMap_congr fun w mem => ?_
    rw [confined.shift, List.map_map]
    exact List.map_congr_left fun m found => by simp only [Function.comp, behind w mem m found]

end Comment

end Rule

/-! ## Rewording a comment -/

def Finding.outside (p : Position) (n : Nat) (f : Finding) : Bool :=
  !p.spans n f.pos

/-- What a comment may say that is to be one comment on one line, and no string or argument list of a
value. -/
structure Value.Quiet (body : List Char) : Prop where
  unclosed : ¬['*', '/'] <:+: body
  inline : '\n' ∉ body
  unmarked : Unmarked body

structure Declaration.Reworded (p : Position) (body body' : List Char) (d d' : Declaration) : Prop where
  prop : d'.prop = d.prop
  valueStart : d'.valueStart = d.valueStart
  value : ∃ before after, d.valueStart.advance before = p ∧
    d.value.toList = before ++ Value.comment body ++ after ∧
    d'.value.toList = before ++ Value.comment body' ++ after

namespace Rule

variable {p : Position} {body body' : List Char} {d d' : Declaration}

theorem filter_search_reworded {find : Word → List (Nat × String)} (confined : Confined find)
    (skip : List String) (reworded : d.Reworded p body body' d') (quiet : Value.Quiet body)
    (quiet' : Value.Quiet body') (length : body'.length = body.length) :
    (search find skip d').filter (Finding.outside p (body.length + 4)) =
      (search find skip d).filter (Finding.outside p (body.length + 4)) := by
  obtain ⟨before, after, rfl, value, value'⟩ := reworded.value
  obtain ⟨front, rest, eq⟩ := search_split confined skip d.valueStart before after body.length
  have dropped {inner : List Finding}
      (inside : ∀ f ∈ inner, (d.valueStart.advance before).spans (body.length + 4) f.pos) :
      inner.filter (Finding.outside (d.valueStart.advance before) (body.length + 4)) = [] := by
    rw [List.filter_eq_nil_iff]
    intro f mem
    simp [Finding.outside, inside f mem]
  obtain ⟨inner, inside, found⟩ := eq d body value rfl quiet.unmarked quiet.inline rfl
  obtain ⟨inner', inside', found'⟩ :=
    eq d' body' value' reworded.valueStart quiet'.unmarked quiet'.inline length
  rw [found, found']
  simp only [List.filter_append, dropped inside, dropped inside']

theorem filter_findings_reworded (reworded : d.Reworded p body body' d') (quiet : Value.Quiet body)
    (quiet' : Value.Quiet body') (length : body'.length = body.length) :
    ∀ findings ∈ [malformedColors, zeroLengths],
      (findings d').filter (Finding.outside p (body.length + 4)) =
        (findings d).filter (Finding.outside p (body.length + 4)) := by
  have same {find : Word → List (Nat × String)} (confined : Confined find) (skip : List String) :=
    filter_search_reworded confined skip reworded quiet quiet' length
  simp only [List.forall_mem_cons, List.not_mem_nil, false_implies, implies_true, and_true]
  constructor
  · rw [malformedColors_eq_search, malformedColors_eq_search]
    exact same confined_colorsIn _
  · rw [zeroLengths_eq_search, zeroLengths_eq_search, reworded.prop]
    split
    · rfl
    · exact same confined_unitsIn _

end Rule

end SheetLint
