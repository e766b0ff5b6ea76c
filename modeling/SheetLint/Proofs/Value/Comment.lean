import SheetLint.Proofs.Value.Stretch

/-!
Comments in values. The words of a value are read without a look at comments, so words of a comment count
as words of the value, and a quote or a parenthesis in it goes on behind it. A comment without quotes and
parentheses has words of its own and nothing else: the words before and after it do not depend on what it
says (`words_comment`).
-/

namespace SheetLint

def Unmarked (cs : List Char) : Prop :=
  ∀ c ∈ cs, c ∉ ['"', '\'', '(', ')']

namespace Value

def Item.Within (since stop : Nat) : Item → Prop
  | .run w => since ≤ w.offset ∧ w.stop ≤ stop
  | .gap => True
  | .opening => False
  | .closing => False

theorem within_endRun {start offset stop : Nat} {chars : List Char}
    (reaches : (Mode.run start chars).Reaches offset) (le : offset ≤ stop) :
    ∀ i ∈ endRun start chars, i.Within start stop := by
  have size : start + (String.ofList chars.reverse).utf8ByteSize = offset := reaches
  intro i mem
  unfold endRun at mem
  split at mem
  · cases mem
  · cases List.mem_singleton.1 mem
    exact ⟨Nat.le_refl _, size.trans_le le⟩

theorem Item.Within.mono {since since' stop : Nat} {i : Item} (h : i.Within since' stop)
    (le : since ≤ since') : i.Within since stop := by
  cases i with
  | run w => exact ⟨le.trans h.1, h.2⟩
  | gap => trivial
  | opening | closing => exact h

theorem itemsFrom_unmarked {xs : List Char} (unmarked : Unmarked xs) {offset start : Nat}
    {chars : List Char} (reaches : (Mode.run start chars).Reaches offset) :
    ∃ inner, (∀ i ∈ inner, i.Within start (offset + (String.ofList xs).utf8ByteSize)) ∧
      ∀ ys, itemsFrom offset (.run start chars) (xs ++ '/' :: ys) =
        inner ++ .gap :: itemsFrom (offset + (String.ofList xs).utf8ByteSize + 1)
          (.run (offset + (String.ofList xs).utf8ByteSize + 1) []) ys := by
  have size : start + (String.ofList chars.reverse).utf8ByteSize = offset := reaches
  induction xs generalizing offset start chars with
  | nil =>
    exact ⟨endRun start chars, within_endRun reaches (Nat.le_refl _), fun ys => rfl⟩
  | cons c xs ih =>
    have here : c ∉ ['"', '\'', '(', ')'] := unmarked c List.mem_cons_self
    have later : Unmarked xs := fun d mem => unmarked d (.tail _ mem)
    simp only [List.mem_cons, List.not_mem_nil, or_false, not_or] at here
    have total : offset + c.utf8Size + (String.ofList xs).utf8ByteSize =
        offset + (String.ofList (c :: xs)).utf8ByteSize := by
      rw [utf8ByteSize_ofList_cons, Nat.add_assoc]
    rw [← total]
    by_cases separates : isSeparator c = true
    · have empty : (Mode.run (offset + c.utf8Size) []).Reaches (offset + c.utf8Size) := rfl
      obtain ⟨inner, within, eq⟩ := ih later empty rfl
      refine ⟨endRun start chars ++ .gap :: inner, ?_, fun ys => ?_⟩
      · rw [List.forall_mem_append, List.forall_mem_cons]
        refine ⟨within_endRun reaches (by omega), trivial, fun i mem => (within i mem).mono (by omega)⟩
      · have quote : ¬(c = '"' ∨ c = '\'') := by simp [here]
        have gap : itemOf c = .gap := by simp [itemOf, here]
        simp only [List.cons_append, itemsFrom, if_pos separates, if_neg quote, gap, eq,
          List.append_assoc]
    · have longer : start + (String.ofList (c :: chars).reverse).utf8ByteSize = offset + c.utf8Size := by
        rw [List.reverse_cons, utf8ByteSize_ofList_append, utf8ByteSize_ofList_cons, ← size,
          Nat.add_assoc]
        rfl
      obtain ⟨inner, within, eq⟩ := ih later longer longer
      refine ⟨inner, within, fun ys => ?_⟩
      simp only [List.cons_append, itemsFrom, if_neg separates, eq]

theorem itemsFrom_unmarked_string {xs : List Char} (unmarked : Unmarked xs) (offset : Nat) {quote : Char}
    (proper : quote = '"' ∨ quote = '\'') (escaped : Bool) :
    ∃ escaped', ∀ ys, itemsFrom offset (.string quote escaped) (xs ++ ys) =
      itemsFrom (offset + (String.ofList xs).utf8ByteSize) (.string quote escaped') ys := by
  induction xs generalizing offset escaped with
  | nil => exact ⟨escaped, fun ys => rfl⟩
  | cons c xs ih =>
    have here : c ∉ ['"', '\'', '(', ')'] := unmarked c List.mem_cons_self
    have closes : c ≠ quote := by
      rintro rfl
      rcases proper with rfl | rfl <;> simp at here
    obtain ⟨escaped', eq⟩ := ih (fun d mem => unmarked d (.tail _ mem)) (offset + c.utf8Size)
      (!escaped && c == '\\')
    refine ⟨escaped', fun ys => ?_⟩
    rw [utf8ByteSize_ofList_cons, ← Nat.add_assoc, ← eq, List.cons_append]
    cases escaped
    · by_cases escape : c = '\\'
      · simp [itemsFrom, escape]
      · have other : (c == '\\') = false := by simpa using escape
        simp [itemsFrom, escape, other, closes]
    · simp [itemsFrom]

theorem itemsFrom_closing_string (offset : Nat) {quote : Char} (proper : quote = '"' ∨ quote = '\'')
    (escaped : Bool) (ys : List Char) :
    itemsFrom offset (.string quote escaped) ('*' :: '/' :: ys) =
      itemsFrom (offset + 2) (.string quote false) ys := by
  rcases proper with rfl | rfl <;> cases escaped <;> simp [itemsFrom] <;> rfl

/-! ## Around a comment -/

def comment (body : List Char) : List Char :=
  '/' :: '*' :: (body ++ ['*', '/'])

theorem size_comment (body : List Char) : (String.ofList (comment body)).utf8ByteSize =
    (String.ofList ('*' :: body ++ ['*'])).utf8ByteSize + 2 := by
  simp only [comment, utf8ByteSize_ofList_cons, utf8ByteSize_ofList_append, List.cons_append]
  have slash : '/'.utf8Size = 1 := rfl
  have star : '*'.utf8Size = 1 := rfl
  simp only [slash, star, String.ofList_nil, String.utf8ByteSize_empty]
  omega

theorem unmarked_within {body : List Char} (h : Unmarked body) : Unmarked ('*' :: body ++ ['*']) := by
  intro c mem
  rcases List.mem_append.1 mem with mem | mem
  · rcases List.mem_cons.1 mem with rfl | mem
    · decide
    · exact h c mem
  · obtain rfl := List.mem_singleton.1 mem
    decide

section Comment

variable {body : List Char} (unmarked : Unmarked body) (offset : Nat) (after : List Char)

include unmarked

theorem itemsFrom_comment (start : Nat) (chars : List Char) :
    ∃ inner : List Item, (∀ i ∈ inner, i.Within (offset + 1)
        (offset + 1 + (String.ofList ('*' :: body ++ ['*'])).utf8ByteSize)) ∧
      itemsFrom offset (.run start chars) (comment body ++ after) =
        endRun start chars ++ .gap :: (inner ++ .gap ::
          itemsFrom (offset + (String.ofList (comment body)).utf8ByteSize)
            (.run (offset + (String.ofList (comment body)).utf8ByteSize) []) after) := by
  have empty : (Mode.run (offset + 1) []).Reaches (offset + 1) := rfl
  obtain ⟨inner, within, eq⟩ := itemsFrom_unmarked (unmarked_within unmarked) empty
  refine ⟨inner, within, ?_⟩
  have size := size_comment body
  have text : comment body ++ after = '/' :: (('*' :: body ++ ['*']) ++ '/' :: after) := by
    simp [comment]
  have slash : itemsFrom offset (.run start chars) (comment body ++ after) =
      endRun start chars ++ .gap ::
        itemsFrom (offset + 1) (.run (offset + 1) []) (('*' :: body ++ ['*']) ++ '/' :: after) := by
    rw [text]
    rfl
  have next : offset + 1 + (String.ofList ('*' :: body ++ ['*'])).utf8ByteSize + 1 =
      offset + (String.ofList (comment body)).utf8ByteSize := by omega
  rw [slash, eq, next]

theorem itemsFrom_comment_string {quote : Char} (proper : quote = '"' ∨ quote = '\'')
    (escaped : Bool) :
    itemsFrom offset (.string quote escaped) (comment body ++ after) =
      itemsFrom (offset + (String.ofList (comment body)).utf8ByteSize) (.string quote false) after := by
  have opening : Unmarked ('/' :: '*' :: body) := by
    rw [Unmarked, List.forall_mem_cons, List.forall_mem_cons]
    exact ⟨by decide, by decide, unmarked⟩
  obtain ⟨escaped', eq⟩ := itemsFrom_unmarked_string opening offset proper escaped
  have text : comment body ++ after = ('/' :: '*' :: body) ++ '*' :: '/' :: after := by
    simp [comment]
  have size : (String.ofList (comment body)).utf8ByteSize =
      (String.ofList ('/' :: '*' :: body)).utf8ByteSize + 2 := by
    rw [show comment body = ('/' :: '*' :: body) ++ ['*', '/'] from rfl, utf8ByteSize_ofList_append]
    rfl
  rw [text, eq, itemsFrom_closing_string _ proper, size, Nat.add_assoc]

end Comment

/-- What the items of a value are in which a comment without quotes and parentheses stands between
`before` and `after`: those before it, its own, and those after it, moved by what precedes them. Only its
own depend on what it says. -/
theorem items_comment (before after : List Char) :
    ∃ front rest : List Item, (∀ w, .run w ∈ front → w.In (before ++ ['/'])) ∧
      (∀ w, .run w ∈ rest → w.In after) ∧
      ∀ body, Unmarked body → ∃ inner : List Item,
        (∀ i ∈ inner, i.Within ((String.ofList before).utf8ByteSize + 1)
          ((String.ofList before).utf8ByteSize + 1 +
            (String.ofList ('*' :: body ++ ['*'])).utf8ByteSize)) ∧
        (inner = [] ∨ ∃ most, inner = most ++ [.gap]) ∧
        itemsFrom 0 (.run 0 []) (before ++ comment body ++ after) = front ++ .gap :: (inner ++
          rest.map (Item.shift (String.ofList (before ++ comment body)).utf8ByteSize)) := by
  obtain ⟨is, mode, leads, eq⟩ := itemsFrom_through before 0 (.run 0 [])
  have within (w : Word) (mem : .run w ∈ itemsFrom 0 (.run 0 []) (before ++ ['/'])) :
      w.In (before ++ ['/']) := by
    have begun : (Mode.run 0 []).Begun [] := ⟨[], rfl, rfl⟩
    exact in_of_mem_itemsFrom rfl begun mem
  have later {mode : Mode} (begun : mode.Begun []) (w : Word)
      (mem : .run w ∈ itemsFrom 0 mode after) : w.In after :=
    in_of_mem_itemsFrom rfl begun mem
  have moved (body : List Char) (mode : Mode) :
      itemsFrom (0 + (String.ofList (before ++ comment body)).utf8ByteSize)
        (mode.shift (String.ofList (before ++ comment body)).utf8ByteSize) after = _ :=
    itemsFrom_shift _ 0 mode after
  have size (body : List Char) : (String.ofList (before ++ comment body)).utf8ByteSize =
      (String.ofList before).utf8ByteSize + (String.ofList (comment body)).utf8ByteSize :=
    utf8ByteSize_ofList_append _ _
  simp only [Nat.zero_add, size] at eq moved ⊢
  cases mode with
  | run start chars =>
    refine ⟨is ++ endRun start chars, itemsFrom 0 (.run 0 []) after, ?_, later ⟨[], rfl, rfl⟩, ?_⟩
    · intro w mem
      apply within
      rw [eq]
      rcases List.mem_append.1 mem with mem | mem
      · exact List.mem_append_left _ mem
      · exact List.mem_append_right _ (List.mem_append_left _ mem)
    · intro body unmarked
      obtain ⟨inner, inside, eq'⟩ := itemsFrom_comment unmarked
        (String.ofList before).utf8ByteSize after start chars
      refine ⟨inner ++ [.gap], ?_, .inr ⟨inner, rfl⟩, ?_⟩
      · exact List.forall_mem_append.2 ⟨inside, List.forall_mem_singleton.2 trivial⟩
      · rw [List.append_assoc, eq, eq', ← moved body (.run 0 [])]
        simp [Mode.shift]
  | string quote escaped =>
    -- The string has begun in `before`, and the comment does not end it.
    rcases leads.string rfl with ⟨no, -⟩ | ⟨front, rfl⟩
    · cases no
    refine ⟨front, itemsFrom 0 (.string quote false) after, ?_, later trivial, ?_⟩
    · intro w mem
      apply within
      rw [eq]
      simp [mem]
    · intro body unmarked
      refine ⟨[], List.forall_mem_nil _, .inl rfl, ?_⟩
      have proper : (Mode.string quote escaped).Proper := leads.proper trivial
      rw [List.append_assoc, eq, itemsFrom_comment_string unmarked _ after proper,
        ← moved body (.string quote false)]
      simp [Mode.shift]

theorem wordsIn_flat {since stop : Nat} {is : List Item} (flat : ∀ i ∈ is, i.Within since stop)
    (skip functions : List String) (rest : List Item) :
    wordsIn skip functions (is ++ .gap :: rest) =
      wordsIn skip functions is ++ wordsIn skip functions rest := by
  induction is with
  | nil => rfl
  | cons i is ih =>
    have flat' : ∀ j ∈ is, j.Within since stop := fun j mem => flat j (.tail _ mem)
    have later := ih flat'
    cases i with
    | run w =>
      have closed : is.head? ≠ some .opening := fun head => flat' _ (List.mem_of_mem_head? head)
      have closed' : (is ++ .gap :: rest).head? ≠ some .opening := by
        cases is with
        | nil => nofun
        | cons j is => exact closed
      rw [List.cons_append, wordsIn_run closed', wordsIn_run closed, later, List.append_assoc]
    | gap => exact later
    | opening | closing => exact (flat _ List.mem_cons_self).elim

theorem words_comment (before after : List Char) (skip : List String) :
    ∃ front rest : List Word, (∀ w ∈ front, w.In (before ++ ['/'])) ∧ (∀ w ∈ rest, w.In after) ∧
      ∀ body, Unmarked body → ∃ inner : List Word,
        (∀ w ∈ inner, (String.ofList before).utf8ByteSize + 1 ≤ w.offset ∧
          w.stop ≤ (String.ofList before).utf8ByteSize + 1 +
            (String.ofList ('*' :: body ++ ['*'])).utf8ByteSize) ∧
        words (String.ofList (before ++ comment body ++ after)) skip = front ++ (inner ++
          rest.map (Word.shift (String.ofList (before ++ comment body)).utf8ByteSize)) := by
  obtain ⟨front, rest, early, late, eq⟩ := items_comment before after
  obtain ⟨functions, apart⟩ := wordsIn_gap skip [] front
  refine ⟨wordsIn skip [] front, wordsIn skip functions rest,
    fun w mem => early w (mem_items_of_mem_wordsIn mem),
    fun w mem => late w (mem_items_of_mem_wordsIn mem), ?_⟩
  intro body unmarked
  obtain ⟨inner, within, ended, whole⟩ := eq body unmarked
  refine ⟨wordsIn skip functions inner,
    fun w mem => within (.run w) (mem_items_of_mem_wordsIn mem), ?_⟩
  rw [words, items, String.toList_ofList, whole, apart, ← wordsIn_shift]
  congr 1
  rcases ended with rfl | ⟨most, rfl⟩
  · rfl
  · have flat := (List.forall_mem_append.1 within).1
    have alone := wordsIn_flat flat skip functions []
    rw [List.append_assoc, List.singleton_append, wordsIn_flat flat, alone]
    simp [wordsIn]

end Value

end SheetLint
