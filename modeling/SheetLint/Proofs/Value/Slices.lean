import SheetLint.Proofs.Slice
import SheetLint.Proofs.Value.MalformedColor
import SheetLint.Proofs.Value.Meaning

namespace SheetLint

namespace Value

/-! ## Words -/

/-- Where the reading of a value stands: the words so far, the functions whose arguments are being read,
innermost first, the offset at which a run has begun, and the quote of the string that is being read. -/
structure Reader where
  words : List Word
  functions : List String
  start : Option Nat
  quote : Option Char
  escaped : Bool

namespace Reader

def run? (value : List Char) (s : Reader) (i : Nat) : Option (Option Word) :=
  match s.start with
  | none => some none
  | some start => (Text.between? start i value).map fun text => some ⟨start, String.ofList text⟩

def step? (value : List Char) (skip : List String) (s : Reader) (i : Nat) (c : Char) : Option Reader :=
  match s.quote with
  | some quote =>
    some <|
      if s.escaped then { s with escaped := false }
      else if c = '\\' then { s with escaped := true }
      else if c = quote then { s with quote := none }
      else s
  | none =>
    if isSeparator c then do
      let run ← s.run? value i
      let kept := (run.filter fun _ => !isSkipped skip s.functions).toList
      let s := { s with start := none }
      if c = '(' then some { s with functions := run.elim "" Word.text :: s.functions }
      else if c = ')' then some { s with words := s.words ++ kept, functions := s.functions.tail }
      else if c = '"' ∨ c = '\'' then some { s with words := s.words ++ kept, quote := some c }
      else some { s with words := s.words ++ kept }
    else some { s with start := s.start.or (some i) }

def readOn? (value : List Char) (skip : List String) (s : Reader) (i : Nat) : List Char → Option Reader
  | [] => some s
  | c :: cs => (s.step? value skip i c).bind fun s => s.readOn? value skip (i + c.utf8Size) cs

def finish? (value : List Char) (skip : List String) (s : Reader) : Option (List Word) :=
  match s.start with
  | none => some s.words
  | some start =>
    if isSkipped skip s.functions then some s.words
    else (Text.from? start value).map fun text => s.words ++ [⟨start, String.ofList text⟩]

end Reader

def words? (value : String) (skip : List String) : Option (List Word) :=
  ((Reader.mk [] [] none none false).readOn? value.toList skip 0 value.toList).bind
    (Reader.finish? value.toList skip)

inductive Reader.At (read : List Char) : Reader → Mode → Prop
  | outside (words : List Word) (functions : List String) :
    At read ⟨words, functions, none, none, false⟩ (.run (Text.size read) [])
  | run (words : List Word) (functions : List String) {before chars : List Char}
    (split : read = before ++ chars.reverse) (begun : chars ≠ []) :
    At read ⟨words, functions, some (Text.size before), none, false⟩ (.run (Text.size before) chars)
  | string (words : List Word) (functions : List String) (quote : Char) (escaped : Bool) :
    At read ⟨words, functions, none, some quote, escaped⟩ (.string quote escaped)

namespace Reader

variable {read : List Char} {s : Reader} {mode : Mode}

theorem run?_eq {start : Nat} {chars : List Char} (here : s.At read (.run start chars))
    (rest : List Char) : s.run? (read ++ rest) (Text.size read) =
      some (if chars = [] then none else some ⟨start, String.ofList chars.reverse⟩) := by
  cases here with
  | outside => rfl
  | @run _ _ before _ split begun =>
    have slice := Text.between?_append before chars.reverse rest
    rw [← List.append_assoc, ← split, ← Text.size_append, ← split] at slice
    simp only [run?, slice, Option.map_some, if_neg begun]

theorem kept_eq (skip functions : List String) (start : Nat) (chars : List Char) :
    ((if chars = [] then none else some (Word.mk start (String.ofList chars.reverse))).filter
        fun _ => !isSkipped skip functions).toList = wordsIn skip functions (endRun start chars) := by
  cases chars with
  | nil => rfl
  | cons c chars =>
    rw [endRun, if_neg (by simp), if_neg (by simp), wordsIn_run (by decide), wordsIn]
    cases isSkipped skip functions <;> rfl

theorem at_solid {start : Nat} {chars : List Char} (here : s.At read (.run start chars)) (c : Char) :
    Reader.At (read ++ [c]) { s with start := s.start.or (some (Text.size read)) }
      (.run start (c :: chars)) := by
  cases here with
  | outside words functions => exact .run words functions (by simp) (by simp)
  | run words functions split begun => exact .run words functions (by simp [split]) (by simp)

theorem exists_step_run {start : Nat} {chars : List Char} (here : s.At read (.run start chars))
    (skip : List String) (c : Char) (rest : List Char) :
    ∃ s' mode', s.step? (read ++ c :: rest) skip (Text.size read) c = some s' ∧
      s'.At (read ++ [c]) mode' ∧
      s.words ++ wordsIn skip s.functions (itemsFrom (Text.size read) (.run start chars) (c :: rest)) =
        s'.words ++ wordsIn skip s'.functions (itemsFrom (Text.size (read ++ [c])) mode' rest) := by
  have outside : s.quote = none ∧ s.escaped = false := by cases here <;> exact ⟨rfl, rfl⟩
  obtain ⟨words, functions, begun, quote, escaped⟩ := s
  obtain ⟨rfl, rfl⟩ := outside
  have next : Text.size (read ++ [c]) = Text.size read + c.utf8Size := by
    rw [Text.size_append, Text.size_singleton]
  have ended (words : List Word) (functions : List String) : Reader.At (read ++ [c])
      ⟨words, functions, none, none, false⟩ (.run (Text.size read + c.utf8Size) []) :=
    next ▸ .outside words functions
  rw [next]
  simp only [step?, run?_eq here, Option.bind_eq_bind, Option.bind_some, kept_eq]
  cases separates : isSeparator c with
  | false => exact ⟨_, _, rfl, at_solid here c, by rw [itemsFrom_solid _ _ _ _ separates]⟩
  | true =>
    rw [if_pos rfl]
    by_cases opening : c = '('
    · subst opening
      refine ⟨_, _, if_pos rfl, ended _ _, ?_⟩
      rw [wordsIn_opening]
      cases chars <;> rfl
    rw [if_neg opening]
    by_cases isQuote : c = '"' ∨ c = '\''
    · have other : c ≠ ')' := by rcases isQuote with rfl | rfl <;> decide
      rw [if_neg other, if_pos isQuote]
      refine ⟨_, _, rfl, .string _ _ c false, ?_⟩
      rw [wordsIn_quote _ _ _ _ _ _ isQuote, List.append_assoc]
    · simp only [if_neg isQuote]
      have words := wordsIn_separator skip functions (Text.size read) start chars rest separates opening
        isQuote
      split_ifs with closing
      · refine ⟨_, _, rfl, ended _ _, ?_⟩
        rw [words, if_pos closing, List.append_assoc]
      · refine ⟨_, _, rfl, ended _ _, ?_⟩
        rw [words, if_neg closing, List.append_assoc]

theorem exists_step (here : s.At read mode) (skip : List String) (c : Char) (rest : List Char) :
    ∃ s' mode', s.step? (read ++ c :: rest) skip (Text.size read) c = some s' ∧
      s'.At (read ++ [c]) mode' ∧
      s.words ++ wordsIn skip s.functions (itemsFrom (Text.size read) mode (c :: rest)) =
        s'.words ++ wordsIn skip s'.functions (itemsFrom (Text.size (read ++ [c])) mode' rest) := by
  cases mode with
  | run start chars => exact exists_step_run here skip c rest
  | string quote escaped =>
    cases here with
    | string words functions =>
      have next : Text.size (read ++ [c]) = Text.size read + c.utf8Size := by
        rw [Text.size_append, Text.size_singleton]
      simp only [step?, itemsFrom, next]
      split_ifs with escape
      · exact ⟨_, _, rfl, .string words functions quote false, rfl⟩
      · exact ⟨_, _, rfl, .string words functions quote true, rfl⟩
      · rw [Bool.not_eq_true] at escape
        rw [escape]
        exact ⟨_, _, rfl, .outside words functions, by rw [next]⟩
      · rw [Bool.not_eq_true] at escape
        rw [escape]
        exact ⟨_, _, rfl, .string words functions quote false, rfl⟩

theorem finish?_eq (here : s.At read mode) (skip : List String) :
    s.finish? read skip =
      some (s.words ++ wordsIn skip s.functions (itemsFrom (Text.size read) mode [])) := by
  cases here with
  | outside words functions => simp [finish?, itemsFrom, endRun, wordsIn]
  | string words functions => simp [finish?, itemsFrom, wordsIn]
  | @run words functions before chars split begun =>
    have slice := Text.from?_append before chars.reverse
    rw [← split] at slice
    rw [itemsFrom, ← kept_eq, if_neg begun]
    simp only [finish?, slice]
    cases isSkipped skip functions with
    | true => simp [Option.filter]
    | false => rfl

theorem readOn?_eq (here : s.At read mode) (skip : List String) (rest : List Char) :
    (s.readOn? (read ++ rest) skip (Text.size read) rest).bind (finish? (read ++ rest) skip) =
      some (s.words ++ wordsIn skip s.functions (itemsFrom (Text.size read) mode rest)) := by
  induction rest generalizing read s mode with
  | nil =>
    rw [List.append_nil]
    exact finish?_eq here skip
  | cons c rest ih =>
    obtain ⟨s', mode', step, next, same⟩ := exists_step here skip c rest
    have later := ih next
    rw [List.append_assoc, List.singleton_append, ← same] at later
    rw [readOn?, step, Option.bind_some, ← Text.size_singleton, ← Text.size_append]
    exact later

end Reader

theorem words?_eq (value : String) (skip : List String) : words? value skip = some (words value skip) :=
  @Reader.readOn?_eq [] _ _ (.outside [] []) skip value.toList

end Value

/-! ## Findings about values -/

def Declaration.valuePosition? (d : Declaration) (offset : Nat) : Option Position :=
  if offset ≤ d.value.utf8ByteSize then
    (Text.takeBytes offset d.value.toList).map d.valueStart.advance
  else none

theorem Declaration.valuePosition?_eq {d : Declaration} {before after : List Char}
    (split : d.value.toList = before ++ after) :
    d.valuePosition? (Text.size before) = some (d.valuePosition (Text.size before)) := by
  have whole : d.value.utf8ByteSize = Text.size before + Text.size after := by
    rw [← Text.size_append, ← split, Text.size, String.ofList_toList]
  have within : Text.size before ≤ d.value.utf8ByteSize := whole ▸ Nat.le_add_right _ _
  have place : d.valuePosition (Text.size before) = d.valueStart.advance before := valuePosition_eq split
  rw [valuePosition?, if_pos within, split, Text.takeBytes_size, place]
  rfl

theorem Word.In.valuePosition?_eq {d : Declaration} {w : Word} (stands : w.In d.value.toList)
    {passed rest : List Char} (split : w.text.toList = passed ++ rest) :
    d.valuePosition? (w.offset + Text.size passed) =
      some (d.valuePosition (w.offset + Text.size passed)) := by
  obtain ⟨before, after, whole, offset⟩ := stands
  have cut : d.value.toList = (before ++ passed) ++ (rest ++ after) := by
    rw [whole, split]
    simp
  have place := Declaration.valuePosition?_eq cut
  rwa [Text.size_append, Text.size, ← offset] at place

theorem mapM_eq_some {α β : Type} {f : α → Option β} {g : α → β} {xs : List α}
    (each : ∀ x ∈ xs, f x = some (g x)) : xs.mapM f = some (xs.map g) := by
  induction xs with
  | nil => rfl
  | cons x xs ih =>
    obtain ⟨first, later⟩ := List.forall_mem_cons.1 each
    rw [List.mapM_cons, first, ih later]
    rfl

namespace Rule

def zeroLength? (d : Declaration) (w : Word) : Option (Option Finding) :=
  match zeroLengthUnit? w with
  | none => some none
  | some offset => (d.valuePosition? offset).map fun p => some ⟨p, "Unexpected unit"⟩

def zeroLengths? (d : Declaration) : Option (List Finding) :=
  if "--".toList.isPrefixOf d.prop.toList then some []
  else do
    let words ← Value.words? d.value ["url", "calc", "var"]
    let found ← words.mapM (zeroLength? d)
    some (found.filterMap id)

def malformedColor? (d : Declaration) (w : Word) (m : ColorMatch) : Option (Option Finding) := do
  let before ← Text.takeBytes m.offset w.text.toList
  if isGlue before.getLast? || isHexColor m.digits then some none
  else
    let p ← d.valuePosition? (w.offset + m.offset)
    some (some (invalidColor p m.digits))

def malformedColors? (d : Declaration) : Option (List Finding) := do
  let words ← Value.words? d.value ["url"]
  let found ← words.mapM fun w => (matchesFrom 0 none w.text.toList).mapM (malformedColor? d w)
  some (found.flatten.filterMap id)

theorem zeroLength?_eq {d : Declaration} {w : Word} (stands : w.In d.value.toList) :
    zeroLength? d w =
      some ((zeroLengthUnit? w).map fun offset => ⟨d.valuePosition offset, "Unexpected unit"⟩) := by
  unfold zeroLength?
  cases found : zeroLengthUnit? w with
  | none => rfl
  | some offset =>
    obtain ⟨number, c, unit, split, rfl, -⟩ := number_of_zeroLengthUnit? found
    have place := stands.valuePosition?_eq split
    rw [Text.size] at place
    simp only [place, Option.map_some]

theorem zeroLengths?_eq (d : Declaration) : zeroLengths? d = some (zeroLengths d) := by
  rw [zeroLengths?, zeroLengths, Value.words?_eq]
  split_ifs
  · rfl
  · have each : (Value.words d.value ["url", "calc", "var"]).mapM (zeroLength? d) =
        some ((Value.words d.value ["url", "calc", "var"]).map fun w =>
          (zeroLengthUnit? w).map fun offset => ⟨d.valuePosition offset, "Unexpected unit"⟩) :=
      mapM_eq_some fun w mem => zeroLength?_eq (Value.in_of_mem_words mem)
    simp only [Option.bind_eq_bind, Option.bind_some, each, List.filterMap_map, Function.id_comp]

theorem exists_passed {offset : Nat} {before : Option Char} {cs : List Char} {m : ColorMatch}
    (mem : m ∈ matchesFrom offset before cs) : ∃ passed rest, cs = passed ++ rest ∧
      m.offset = offset + Text.size passed ∧ m.before = passed.getLast?.or before := by
  fun_induction matchesFrom offset before cs with
  | case1 => cases mem
  | case2 offset before c cs digits found ih =>
    rcases List.mem_cons.1 mem with rfl | mem
    · exact ⟨[], c :: cs, rfl, rfl, rfl⟩
    · obtain ⟨passed, rest, split, place, last⟩ := ih mem
      have cut : digits ++ (passed ++ rest) = cs := split ▸ List.takeWhile_append_dropWhile
      refine ⟨c :: digits ++ passed, rest, by rw [List.append_assoc, List.cons_append, cut], ?_, ?_⟩
      · rw [place, Text.size_append, Text.size_cons, ← Nat.add_assoc, ← Nat.add_assoc]
        rfl
      · have ends : digits.getLast? ≠ none := by simpa using found.2
        obtain ⟨d, final⟩ := Option.ne_none_iff_exists'.1 ends
        rw [last, List.getLast?_append, List.getLast?_cons, final]
        cases passed.getLast? <;> rfl
  | case3 offset before c cs digits other ih =>
    obtain ⟨passed, rest, rfl, place, last⟩ := ih mem
    refine ⟨c :: passed, rest, rfl, ?_, ?_⟩
    · rw [place, Text.size_cons, Nat.add_assoc]
    · rw [last]
      cases passed <;> simp [List.getLast?_cons]

theorem matchesFrom_add (k offset : Nat) (before : Option Char) (cs : List Char) :
    matchesFrom (k + offset) before cs =
      (matchesFrom offset before cs).map fun m => { m with offset := k + m.offset } := by
  fun_induction matchesFrom offset before cs with
  | case1 => simp [matchesFrom]
  | case2 offset before c cs digits found ih =>
    rw [matchesFrom, if_pos found, List.map_cons, ← ih, Nat.add_assoc k, Nat.add_assoc k]
  | case3 offset before c cs digits other ih =>
    rw [matchesFrom, if_neg other, ← ih, Nat.add_assoc]

def colorFinding (d : Declaration) (w : Word) (m : ColorMatch) : Option Finding :=
  if isGlue m.before || isHexColor m.digits then none
  else some (invalidColor (d.valuePosition (w.offset + m.offset)) m.digits)

theorem malformedColor?_eq {d : Declaration} {w : Word} (stands : w.In d.value.toList) {m : ColorMatch}
    (mem : m ∈ matchesFrom 0 none w.text.toList) :
    malformedColor? d w m = some (colorFinding d w m) := by
  obtain ⟨passed, rest, split, place, last⟩ := exists_passed mem
  rw [Nat.zero_add] at place
  rw [Option.or_none] at last
  have before : Text.takeBytes m.offset w.text.toList = some passed := by
    rw [place, split, Text.takeBytes_size]
  have position := stands.valuePosition?_eq split
  rw [← place] at position
  rw [malformedColor?, colorFinding, before, last]
  simp only [Option.bind_eq_bind, Option.bind_some, position]
  split_ifs <;> rfl

theorem filterMap_colorFinding (d : Declaration) (w : Word) :
    (matchesFrom 0 none w.text.toList).filterMap (colorFinding d w) =
      (malformedFrom w.offset none w.text.toList).map fun m =>
        invalidColor (d.valuePosition m.1) m.2 := by
  have shifted := matchesFrom_add w.offset 0 none w.text.toList
  rw [Nat.add_zero] at shifted
  rw [malformedFrom_eq_matches, shifted]
  induction matchesFrom 0 none w.text.toList with
  | nil => rfl
  | cons m ms ih =>
    rw [List.filterMap_cons, ih, colorFinding, List.map_cons, List.filter_cons]
    cases isGlue m.before <;> cases isHexColor m.digits <;> rfl

theorem malformedColors?_eq (d : Declaration) : malformedColors? d = some (malformedColors d) := by
  rw [malformedColors?, malformedColors_eq, Value.words?_eq]
  have each : (Value.words d.value ["url"]).mapM (fun w =>
        (matchesFrom 0 none w.text.toList).mapM (malformedColor? d w)) =
      some ((Value.words d.value ["url"]).map fun w =>
        (matchesFrom 0 none w.text.toList).map (colorFinding d w)) :=
    mapM_eq_some fun w mem =>
      mapM_eq_some fun m found => malformedColor?_eq (Value.in_of_mem_words mem) found
  simp only [Option.bind_eq_bind, Option.bind_some, each, List.filterMap_flatten, List.map_map,
    Function.comp_def, List.filterMap_map, id, filterMap_colorFinding, List.flatMap_def]

end Rule

end SheetLint
