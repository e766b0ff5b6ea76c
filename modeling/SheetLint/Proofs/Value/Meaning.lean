import Mathlib.Data.List.DropRight
import SheetLint.Proofs.Value.Stretch

namespace SheetLint.Value

/-! ## Strings and parentheses -/

inductive Quoted (quote : Char) : List Char → Prop
  | nil : Quoted quote []
  | plain {body : List Char} {c : Char} (said : Quoted quote body) (other : c ≠ quote)
    (visible : c ≠ '\\') : Quoted quote (body ++ [c])
  | escaped {body : List Char} (said : Quoted quote body) (c : Char) : Quoted quote (body ++ ['\\', c])

def IsQuote (c : Char) : Prop :=
  c = '"' ∨ c = '\''

def Separates (c : Char) : Prop :=
  Text.isBlank c = true ∨ c ∈ [',', '/', '(', ')', '"', '\'']

instance : DecidablePred Separates :=
  fun _ => inferInstanceAs (Decidable (_ ∨ _))

def trailing (text : List Char) : List Char :=
  text.rtakeWhile (¬Separates ·)

/-- Whether a text ends outside of strings, with the names of the parentheses that are open there, the
latest first. -/
inductive Opens : List Char → List String → Prop
  | nil : Opens [] []
  | opening {text : List Char} {names : List String} (before : Opens text names) :
    Opens (text ++ ['(']) (String.ofList (trailing text) :: names)
  | closing {text : List Char} {names : List String} (before : Opens text names) :
    Opens (text ++ [')']) names.tail
  | string {text body : List Char} {names : List String} {quote : Char} (before : Opens text names)
    (isQuote : IsQuote quote) (said : Quoted quote body) :
    Opens (text ++ quote :: body ++ [quote]) names
  | other {text : List Char} {names : List String} {c : Char} (before : Opens text names)
    (ne_opening : c ≠ '(') (ne_closing : c ≠ ')') (plain : ¬IsQuote c) : Opens (text ++ [c]) names

structure Stands (skip : List String) (before : List Char) (w : Word) (after : List Char) : Prop where
  offset : w.offset = (String.ofList before).utf8ByteSize
  nonempty : w.text.toList ≠ []
  solid : ∀ c ∈ w.text.toList, ¬Separates c
  begins : trailing before = []
  ends : ∀ c, after.head? = some c → Separates c ∧ c ≠ '('
  outside : ∃ names, Opens before names ∧
    ∀ name ∈ names, ∀ s ∈ skip, Text.eqIgnoringCase name s = false

def IsWord (skip : List String) (value : List Char) (w : Word) : Prop :=
  ∃ before after, value = before ++ (w.text.toList ++ after) ∧ Stands skip before w after

/-! ## One character -/

theorem isSeparator_iff {c : Char} : isSeparator c = true ↔ Separates c := by
  simp [isSeparator, Separates, or_assoc]

theorem isSeparator_eq_false_iff {c : Char} : isSeparator c = false ↔ ¬Separates c := by
  rw [← isSeparator_iff, Bool.not_eq_true]

theorem isSeparator_of_isQuote {c : Char} (quote : IsQuote c) : isSeparator c = true := by
  rcases quote with rfl | rfl <;> decide

theorem trailing_solid {text : List Char} {c : Char} (solid : isSeparator c = false) :
    trailing (text ++ [c]) = trailing text ++ [c] :=
  List.rtakeWhile_concat_pos _ _ _ (decide_eq_true (isSeparator_eq_false_iff.1 solid))

theorem trailing_separator {text : List Char} {c : Char} (separates : isSeparator c = true) :
    trailing (text ++ [c]) = [] :=
  List.rtakeWhile_concat_neg _ _ _ (by simpa using isSeparator_iff.1 separates)

theorem trailing_append {text run : List Char} (border : trailing text = [])
    (solid : ∀ c ∈ run, isSeparator c = false) : trailing (text ++ run) = run := by
  induction run using List.reverseRecOn with
  | nil => rw [List.append_nil, border]
  | append_singleton run c ih =>
    obtain ⟨earlier, last⟩ := List.forall_mem_append.1 solid
    rw [← List.append_assoc, trailing_solid (last c (.head _)), ih earlier]

theorem Opens.append {text run : List Char} {names : List String} (before : Opens text names)
    (solid : ∀ c ∈ run, isSeparator c = false) : Opens (text ++ run) names := by
  induction run using List.reverseRecOn with
  | nil => rwa [List.append_nil]
  | append_singleton run c ih =>
    obtain ⟨earlier, last⟩ := List.forall_mem_append.1 solid
    have last := last c (.head _)
    rw [← List.append_assoc]
    refine (ih earlier).other ?_ ?_ fun quote => ?_
    · rintro rfl
      exact absurd last (by decide)
    · rintro rfl
      exact absurd last (by decide)
    · rw [isSeparator_of_isQuote quote] at last
      cases last

theorem Opens.separator {text : List Char} {names : List String} {c : Char} (before : Opens text names)
    (ne_opening : c ≠ '(') (plain : ¬IsQuote c) :
    Opens (text ++ [c]) (if c = ')' then names.tail else names) := by
  split
  next closing =>
    cases closing
    exact before.closing
  next other => exact before.other ne_opening other plain

theorem isSkipped_eq_false_iff {skip names : List String} : isSkipped skip names = false ↔
    ∀ name ∈ names, ∀ s ∈ skip, Text.eqIgnoringCase name s = false := by
  simp [isSkipped]

theorem mem_wordsIn_endRun {skip names : List String} {start : Nat} {chars : List Char} {w : Word} :
    w ∈ wordsIn skip names (endRun start chars) ↔
      chars ≠ [] ∧ isSkipped skip names = false ∧ w = ⟨start, String.ofList chars.reverse⟩ := by
  cases chars with
  | nil => simp [endRun, wordsIn]
  | cons c chars =>
    rw [endRun, if_neg (by simp), wordsIn_run (by decide)]
    cases skipped : isSkipped skip names <;> simp [wordsIn]

section Step

variable (skip names : List String) (offset start : Nat) (chars rest : List Char) {c : Char}

theorem itemsFrom_solid (solid : isSeparator c = false) :
    itemsFrom offset (.run start chars) (c :: rest) =
      itemsFrom (offset + c.utf8Size) (.run start (c :: chars)) rest := by
  simp only [itemsFrom, solid, Bool.false_eq_true, if_false]

theorem wordsIn_opening : wordsIn skip names (itemsFrom offset (.run start chars) ('(' :: rest)) =
    wordsIn skip (String.ofList chars.reverse :: names)
      (itemsFrom (offset + '('.utf8Size) (.run (offset + '('.utf8Size) []) rest) := by
  cases chars <;> rfl

theorem wordsIn_endRun (more : List Item) (ne_opening : c ≠ '(') :
    wordsIn skip names (endRun start chars ++ itemOf c :: more) =
      wordsIn skip names (endRun start chars) ++
        wordsIn skip (if c = ')' then names.tail else names) more := by
  have item : wordsIn skip names (itemOf c :: more) =
      wordsIn skip (if c = ')' then names.tail else names) more := by
    rw [itemOf, if_neg ne_opening]
    split <;> rfl
  cases chars with
  | nil => exact item
  | cons d chars =>
    have still : (itemOf c :: more).head? ≠ some .opening := by
      rw [itemOf, if_neg ne_opening]
      split <;> simp
    rw [endRun, if_neg (by simp), List.singleton_append, wordsIn_run still, item,
      wordsIn_run (by decide), wordsIn, List.append_nil]

theorem wordsIn_separator (separates : isSeparator c = true) (ne_opening : c ≠ '(')
    (plain : ¬IsQuote c) : wordsIn skip names (itemsFrom offset (.run start chars) (c :: rest)) =
      wordsIn skip names (endRun start chars) ++ wordsIn skip (if c = ')' then names.tail else names)
        (itemsFrom (offset + c.utf8Size) (.run (offset + c.utf8Size) []) rest) := by
  simp only [itemsFrom, separates, if_true]
  rw [wordsIn_endRun _ _ _ _ _ ne_opening]
  congr 3
  exact if_neg plain

theorem wordsIn_quote (quote : IsQuote c) :
    wordsIn skip names (itemsFrom offset (.run start chars) (c :: rest)) =
      wordsIn skip names (endRun start chars) ++
        wordsIn skip names (itemsFrom (offset + c.utf8Size) (.string c false) rest) := by
  have ne_paren : c ≠ '(' ∧ c ≠ ')' := by rcases quote with rfl | rfl <;> decide
  simp only [itemsFrom, isSeparator_of_isQuote quote, if_true]
  rw [wordsIn_endRun _ _ _ _ _ ne_paren.1, if_neg ne_paren.2]
  congr 3
  exact if_pos quote

end Step

/-! ## Every word is one -/

/-- Whether the reading of a value stands in a mode, inside of the parentheses with some names, when
`read` has been read. -/
def Mode.At (read : List Char) (names : List String) : Mode → Prop
  | .run start chars => ∃ before, read = before ++ chars.reverse ∧ Opens before names ∧
    trailing before = [] ∧ (∀ c ∈ chars, isSeparator c = false) ∧
    start = (String.ofList before).utf8ByteSize
  | .string quote escaped => IsQuote quote ∧ ∃ before body, Opens before names ∧ Quoted quote body ∧
    read = before ++ quote :: (body ++ if escaped then ['\\'] else [])

section At

variable {skip names : List String} {start : Nat} {chars read : List Char} {w : Word}

theorem opens_of_at (here : (Mode.run start chars).At read names) : Opens read names := by
  obtain ⟨before, rfl, opens, -, solid, -⟩ := here
  exact opens.append fun c mem => solid c (List.mem_reverse.1 mem)

theorem trailing_of_at (here : (Mode.run start chars).At read names) :
    trailing read = chars.reverse := by
  obtain ⟨before, rfl, -, border, solid, -⟩ := here
  exact trailing_append border fun c mem => solid c (List.mem_reverse.1 mem)

theorem at_solid {c : Char} (here : (Mode.run start chars).At read names)
    (solid : isSeparator c = false) : (Mode.run start (c :: chars)).At (read ++ [c]) names := by
  obtain ⟨before, rfl, opens, border, earlier, size⟩ := here
  exact ⟨before, by simp, opens, border, List.forall_mem_cons.2 ⟨solid, earlier⟩, size⟩

theorem at_separator {c : Char} (opens : Opens (read ++ [c]) names) (separates : isSeparator c = true) :
    (Mode.run ((String.ofList read).utf8ByteSize + c.utf8Size) []).At (read ++ [c]) names := by
  refine ⟨read ++ [c], by simp, opens, trailing_separator separates, List.forall_mem_nil _, ?_⟩
  rw [utf8ByteSize_ofList_concat]

theorem at_quote {quote : Char} (opens : Opens read names) (isQuote : IsQuote quote) :
    (Mode.string quote false).At (read ++ [quote]) names :=
  ⟨isQuote, read, [], opens, .nil, rfl⟩

theorem exists_at_string {quote c : Char} {escaped : Bool}
    (here : (Mode.string quote escaped).At read names) : ∃ mode : Mode, mode.At (read ++ [c]) names ∧
      ∀ rest, itemsFrom (String.ofList read).utf8ByteSize (.string quote escaped) (c :: rest) =
        itemsFrom ((String.ofList read).utf8ByteSize + c.utf8Size) mode rest := by
  obtain ⟨isQuote, before, body, opens, said, split⟩ := here
  cases escaped with
  | true =>
    refine ⟨.string quote false, ⟨isQuote, before, _, opens, said.escaped c, ?_⟩, fun rest => rfl⟩
    simp [split]
  | false =>
    simp only [itemsFrom, Bool.false_eq_true, if_false]
    by_cases escape : c = '\\'
    · refine ⟨.string quote true, ⟨isQuote, before, _, opens, said, ?_⟩, fun rest => if_pos escape⟩
      simp [split, escape]
    by_cases closes : c = quote
    · have closed := opens.string isQuote said
      refine ⟨_, at_separator ?_ ?_, fun rest => (if_neg escape).trans (if_pos closes)⟩
      · simpa [split, closes] using closed
      · exact closes ▸ isSeparator_of_isQuote isQuote
    · refine ⟨.string quote false, ⟨isQuote, before, _, opens, said.plain closes escape, ?_⟩,
        fun rest => (if_neg escape).trans (if_neg closes)⟩
      simp [split]

theorem isWord_of_mem_endRun {after : List Char} (here : (Mode.run start chars).At read names)
    (mem : w ∈ wordsIn skip names (endRun start chars))
    (ends : ∀ c, after.head? = some c → Separates c ∧ c ≠ '(') :
    IsWord skip (read ++ after) w := by
  obtain ⟨before, rfl, opens, border, solid, size⟩ := here
  obtain ⟨nonempty, kept, rfl⟩ := mem_wordsIn_endRun.1 mem
  refine ⟨before, after, by simp, size, ?_, ?_, border, ends, names, opens,
    isSkipped_eq_false_iff.1 kept⟩
  · simpa using nonempty
  · simpa [← isSeparator_eq_false_iff] using solid

theorem isWord_of_mem {mode : Mode} {rest : List Char} (here : mode.At read names)
    (mem : w ∈ wordsIn skip names (itemsFrom (String.ofList read).utf8ByteSize mode rest)) :
    IsWord skip (read ++ rest) w := by
  induction rest generalizing read names mode with
  | nil =>
    cases mode with
    | run start chars => exact isWord_of_mem_endRun here mem nofun
    | string quote escaped => cases mem
  | cons c rest ih =>
    have onward {names : List String} {mode : Mode} (here : mode.At (read ++ [c]) names)
        (mem : w ∈ wordsIn skip names
          (itemsFrom ((String.ofList read).utf8ByteSize + c.utf8Size) mode rest)) :
        IsWord skip (read ++ c :: rest) w := by
      rw [List.append_cons]
      refine ih here ?_
      rwa [utf8ByteSize_ofList_concat]
    cases mode with
    | string quote escaped =>
      obtain ⟨mode, here, eq⟩ := exists_at_string here
      rw [eq] at mem
      exact onward here mem
    | run start chars =>
      have opens := opens_of_at here
      cases separates : isSeparator c with
      | false =>
        rw [itemsFrom_solid _ _ _ _ separates] at mem
        exact onward (at_solid here separates) mem
      | true =>
        -- A run before a parenthesis names a function and is no word.
        by_cases opening : c = '('
        · subst opening
          rw [wordsIn_opening, ← trailing_of_at here] at mem
          exact onward (at_separator opens.opening separates) mem
        have ended (mem : w ∈ wordsIn skip names (endRun start chars)) :
            IsWord skip (read ++ c :: rest) w :=
          isWord_of_mem_endRun here mem fun d first => by
            cases first
            exact ⟨isSeparator_iff.1 separates, opening⟩
        by_cases quote : IsQuote c
        · rw [wordsIn_quote _ _ _ _ _ _ quote] at mem
          exact (List.mem_append.1 mem).elim ended (onward (at_quote opens quote))
        · rw [wordsIn_separator _ _ _ _ _ _ separates opening quote] at mem
          exact (List.mem_append.1 mem).elim ended
            (onward (at_separator (opens.separator opening quote) separates))

end At

/-! ## Every such run is a word -/

section Read

variable {skip names : List String} {before : List Char}

theorem itemsFrom_quoted {quote : Char} {body : List Char} (said : Quoted quote body) (offset : Nat)
    (rest : List Char) : itemsFrom offset (.string quote false) (body ++ rest) =
      itemsFrom (offset + (String.ofList body).utf8ByteSize) (.string quote false) rest := by
  induction said generalizing rest with
  | nil => rfl
  | plain said other visible ih =>
    rw [List.append_assoc, ih, utf8ByteSize_ofList_concat, ← Nat.add_assoc]
    simp only [List.singleton_append, itemsFrom, Bool.false_eq_true, if_false]
    rw [if_neg visible, if_neg other]
  | @escaped body said c ih =>
    rw [List.append_assoc, ih, List.append_cons body, utf8ByteSize_ofList_concat,
      utf8ByteSize_ofList_concat, ← Nat.add_assoc, ← Nat.add_assoc]
    rfl

theorem itemsFrom_string {quote : Char} {body : List Char} (isQuote : IsQuote quote)
    (said : Quoted quote body) (offset : Nat) (rest : List Char) :
    itemsFrom offset (.string quote false) (body ++ quote :: rest) =
      itemsFrom (offset + (String.ofList body).utf8ByteSize + quote.utf8Size)
        (.run (offset + (String.ofList body).utf8ByteSize + quote.utf8Size) []) rest := by
  have visible : quote ≠ '\\' := by rcases isQuote with rfl | rfl <;> decide
  rw [itemsFrom_quoted said, itemsFrom, if_neg (by decide), if_neg visible, if_pos rfl]

def ReadTo (skip : List String) (text : List Char) (names : List String) : Prop :=
  ∃ start chars early, (Mode.run start chars).At text names ∧
    ∀ rest, wordsIn skip [] (itemsFrom 0 (.run 0 []) (text ++ rest)) =
      early ++ wordsIn skip names (itemsFrom (String.ofList text).utf8ByteSize (.run start chars) rest)

theorem ReadTo.solid {c : Char} (read : ReadTo skip before names) (solid : isSeparator c = false) :
    ReadTo skip (before ++ [c]) names := by
  obtain ⟨start, chars, early, here, eq⟩ := read
  refine ⟨start, c :: chars, early, at_solid here solid, fun rest => ?_⟩
  rw [List.append_assoc, eq, List.singleton_append, itemsFrom_solid _ _ _ _ solid,
    utf8ByteSize_ofList_concat]

theorem ReadTo.opening (read : ReadTo skip before names) :
    ReadTo skip (before ++ ['(']) (String.ofList (trailing before) :: names) := by
  obtain ⟨start, chars, early, here, eq⟩ := read
  refine ⟨_, [], early, at_separator (opens_of_at here).opening (by decide), fun rest => ?_⟩
  rw [List.append_assoc, eq, List.singleton_append, wordsIn_opening, ← trailing_of_at here,
    utf8ByteSize_ofList_concat]

theorem ReadTo.separator {c : Char} (read : ReadTo skip before names) (separates : isSeparator c = true)
    (ne_opening : c ≠ '(') (plain : ¬IsQuote c) :
    ReadTo skip (before ++ [c]) (if c = ')' then names.tail else names) := by
  obtain ⟨start, chars, early, here, eq⟩ := read
  refine ⟨_, [], early ++ wordsIn skip names (endRun start chars),
    at_separator ((opens_of_at here).separator ne_opening plain) separates, fun rest => ?_⟩
  rw [List.append_assoc, eq, List.singleton_append,
    wordsIn_separator _ _ _ _ _ _ separates ne_opening plain, utf8ByteSize_ofList_concat,
    List.append_assoc]

theorem ReadTo.string {quote : Char} {body : List Char} (read : ReadTo skip before names)
    (isQuote : IsQuote quote) (said : Quoted quote body) :
    ReadTo skip (before ++ quote :: body ++ [quote]) names := by
  obtain ⟨start, chars, early, here, eq⟩ := read
  have split (rest : List Char) : before ++ quote :: body ++ [quote] ++ rest =
    before ++ quote :: (body ++ quote :: rest) := by simp
  have size : (String.ofList (before ++ quote :: body)).utf8ByteSize =
      (String.ofList before).utf8ByteSize + quote.utf8Size + (String.ofList body).utf8ByteSize := by
    rw [utf8ByteSize_ofList_append, utf8ByteSize_ofList_cons, Nat.add_assoc]
  refine ⟨_, [], early ++ wordsIn skip names (endRun start chars),
    at_separator ((opens_of_at here).string isQuote said) (isSeparator_of_isQuote isQuote),
    fun rest => ?_⟩
  rw [split, eq, wordsIn_quote _ _ _ _ _ _ isQuote, itemsFrom_string isQuote said,
    utf8ByteSize_ofList_concat, size, List.append_assoc]

theorem readTo_of_opens (skip : List String) (opens : Opens before names) :
    ReadTo skip before names := by
  induction opens with
  | nil => exact ⟨0, [], [], ⟨[], rfl, .nil, rfl, List.forall_mem_nil _, rfl⟩, fun rest => rfl⟩
  | opening before ih => exact ih.opening
  | closing before ih => exact ih.separator (c := ')') (by decide) (by decide) (by unfold IsQuote; decide)
  | string before isQuote said ih => exact ih.string isQuote said
  | @other text names c before ne_opening ne_closing plain ih =>
    cases separates : isSeparator c with
    | false => exact ih.solid separates
    | true =>
      have read := ih.separator separates ne_opening plain
      rwa [if_neg ne_closing] at read

theorem itemsFrom_run {run : List Char} (solid : ∀ c ∈ run, isSeparator c = false)
    (offset start : Nat) (chars rest : List Char) :
    itemsFrom offset (.run start chars) (run ++ rest) =
      itemsFrom (offset + (String.ofList run).utf8ByteSize) (.run start (run.reverse ++ chars)) rest := by
  induction run generalizing offset chars with
  | nil => rfl
  | cons c run ih =>
    obtain ⟨first, later⟩ := List.forall_mem_cons.1 solid
    rw [List.cons_append, itemsFrom_solid _ _ _ _ first, ih later, utf8ByteSize_ofList_cons,
      List.reverse_cons, List.append_assoc, Nat.add_assoc]
    rfl

theorem mem_of_ends {start offset : Nat} {chars after : List Char} {w : Word}
    (ends : ∀ c, after.head? = some c → Separates c ∧ c ≠ '(')
    (mem : w ∈ wordsIn skip names (endRun start chars)) :
    w ∈ wordsIn skip names (itemsFrom offset (.run start chars) after) := by
  cases after with
  | nil => exact mem
  | cons c after =>
    obtain ⟨separates, ne_opening⟩ := ends c rfl
    by_cases quote : IsQuote c
    · rw [wordsIn_quote _ _ _ _ _ _ quote]
      exact List.mem_append_left _ mem
    · rw [wordsIn_separator _ _ _ _ _ _ (isSeparator_iff.2 separates) ne_opening quote]
      exact List.mem_append_left _ mem

theorem mem_of_stands {after : List Char} {w : Word} (stands : Stands skip before w after) :
    w ∈ wordsIn skip [] (itemsFrom 0 (.run 0 []) (before ++ (w.text.toList ++ after))) := by
  obtain ⟨names, opens, kept⟩ := stands.outside
  obtain ⟨start, chars, early, here, eq⟩ := readTo_of_opens skip opens
  obtain rfl : chars = [] := List.reverse_eq_nil_iff.1 ((trailing_of_at here).symm.trans stands.begins)
  obtain ⟨before, rfl, -, -, -, rfl⟩ := here
  have solid : ∀ c ∈ w.text.toList, isSeparator c = false := fun c mem =>
    isSeparator_eq_false_iff.2 (stands.solid c mem)
  rw [eq, itemsFrom_run solid]
  refine List.mem_append_right _ (mem_of_ends stands.ends (mem_wordsIn_endRun.2 ⟨?_, ?_, ?_⟩))
  · simpa using stands.nonempty
  · exact isSkipped_eq_false_iff.2 kept
  · obtain ⟨offset, text⟩ := w
    simpa using stands.offset

end Read

theorem Stands.lt_stop {skip : List String} {before after : List Char} {w : Word}
    (stands : Stands skip before w after) : w.offset < w.stop := by
  obtain ⟨c, cs, text⟩ := List.exists_cons_of_ne_nil stands.nonempty
  rw [Word.stop, ← String.ofList_toList (s := w.text), text, utf8ByteSize_ofList_cons]
  have := c.utf8Size_pos
  omega

/-- The words of a value are the runs that stand in it outside of strings, of the arguments of the
functions to be skipped and of the names of functions. They come from left to right without overlapping. -/
theorem words_are_runs (value : String) (skip : List String) :
    (∀ w, w ∈ words value skip ↔ IsWord skip value.toList w) ∧
    (∀ w ∈ words value skip, w.text.toList ≠ [] ∧ w.In value.toList) ∧
    (words value skip).Pairwise fun v w => v.offset < w.offset ∧ v.stop ≤ w.offset := by
  have mem (w : Word) : w ∈ words value skip ↔ IsWord skip value.toList w := by
    constructor
    · have empty : (Mode.run 0 []).At [] [] := ⟨[], rfl, .nil, rfl, List.forall_mem_nil _, rfl⟩
      exact isWord_of_mem empty
    · rintro ⟨before, after, split, stands⟩
      rw [words, items, split]
      exact mem_of_stands stands
  refine ⟨mem, fun w among => ⟨?_, in_of_mem_words among⟩, ?_⟩
  · obtain ⟨before, after, -, stands⟩ := (mem w).1 among
    exact stands.nonempty
  · refine (words_pairwise value skip).imp_of_mem fun {v w} first _ apart => ⟨?_, apart⟩
    obtain ⟨before, after, -, stands⟩ := (mem v).1 first
    exact stands.lt_stop.trans_le apart

example : words "0px url(0px.png) \"0px\" calc(0px + 1px), 2em" ["url", "calc"] =
    [⟨0, "0px"⟩, ⟨40, "2em"⟩] := by
  decide +kernel

end SheetLint.Value
