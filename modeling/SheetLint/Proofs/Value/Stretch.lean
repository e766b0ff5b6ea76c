import Mathlib.Tactic.SplitIfs
import SheetLint.Proofs.Value.Order

namespace SheetLint

def Word.shift (k : Nat) (w : Word) : Word :=
  { w with offset := w.offset + k }

namespace Value

def Item.shift (k : Nat) : Item → Item
  | .run w => .run (w.shift k)
  | .opening => .opening
  | .closing => .closing
  | .gap => .gap

def Mode.shift (k : Nat) : Mode → Mode
  | .run start chars => .run (start + k) chars
  | .string quote escaped => .string quote escaped

/-! ## Moving offsets -/

theorem endRun_shift (k start : Nat) (chars : List Char) :
    endRun (start + k) chars = (endRun start chars).map (Item.shift k) := by
  unfold endRun
  split <;> rfl

theorem itemOf_shift (k : Nat) (c : Char) : (itemOf c).shift k = itemOf c := by
  unfold itemOf
  split_ifs <;> rfl

theorem itemsFrom_shift (k offset : Nat) (mode : Mode) (cs : List Char) :
    itemsFrom (offset + k) (mode.shift k) cs = (itemsFrom offset mode cs).map (Item.shift k) := by
  induction cs generalizing offset mode with
  | nil =>
    cases mode with
    | run start chars => exact endRun_shift k start chars
    | string quote escaped => rfl
  | cons c cs ih =>
    have moved : offset + k + c.utf8Size = offset + c.utf8Size + k := Nat.add_right_comm _ _ _
    cases mode with
    | run start chars =>
      simp only [Mode.shift, itemsFrom, moved]
      split
      · rw [List.map_append, List.map_cons, ← endRun_shift, itemOf_shift, ← ih]
        split <;> rfl
      · exact ih _ (.run start (c :: chars))
    | string quote escaped =>
      simp only [Mode.shift, itemsFrom, moved]
      split_ifs
      · exact ih _ (.string quote false)
      · exact ih _ (.string quote true)
      · exact ih _ (.run (offset + c.utf8Size) [])
      · exact ih _ (.string quote false)

theorem wordsIn_run {skip functions : List String} {w : Word} {rest : List Item}
    (other : rest.head? ≠ some .opening) :
    wordsIn skip functions (.run w :: rest) =
      (if isSkipped skip functions then [] else [w]) ++ wordsIn skip functions rest := by
  rw [wordsIn]
  · split <;> rfl
  · rintro rest' rfl
    exact other rfl

theorem ne_opening_of {rest : List Item} (other : ∀ more, rest = .opening :: more → False) :
    rest.head? ≠ some .opening := by
  intro head
  obtain ⟨more, split⟩ := List.head?_eq_some_iff.1 head
  exact other more split

theorem wordsIn_shift (skip functions : List String) (k : Nat) (is : List Item) :
    wordsIn skip functions (is.map (Item.shift k)) = (wordsIn skip functions is).map (Word.shift k) := by
  have still {rest : List Item} (other : ∀ more, rest = .opening :: more → False) :
      (rest.map (Item.shift k)).head? ≠ some .opening := by
    intro head
    rw [List.head?_map, Option.map_eq_some_iff] at head
    obtain ⟨i, first, same⟩ := head
    cases i with
    | opening => exact ne_opening_of other first
    | run | closing | gap => cases same
  fun_induction wordsIn skip functions is with
  | case1 => rfl
  | case2 functions w rest ih => exact ih
  | case3 functions w rest other skipped ih =>
    rw [List.map_cons, Item.shift, wordsIn_run (still other), if_pos skipped]
    exact ih
  | case4 functions w rest other kept ih =>
    rw [List.map_cons, Item.shift, wordsIn_run (still other), if_neg kept, ih]
    rfl
  | case5 functions rest ih | case6 functions rest ih | case7 functions rest ih => exact ih

/-! ## One stretch after the other -/

def Mode.Proper : Mode → Prop
  | .run _ _ => True
  | .string quote _ => quote = '"' ∨ quote = '\''

def Mode.isString : Mode → Bool
  | .run _ _ => false
  | .string _ _ => true

theorem itemOf_quote {c : Char} (quote : c = '"' ∨ c = '\'') : itemOf c = .gap := by
  rcases quote with rfl | rfl <;> rfl

/-- Whether reading comes from a mode to another over some items. A string that is open then has begun
at a gap. -/
structure Mode.Leads (mode : Mode) (is : List Item) (mode' : Mode) : Prop where
  proper : mode.Proper → mode'.Proper
  string : mode'.isString → mode.isString ∧ is = [] ∨ ∃ front, is = front ++ [.gap]

theorem Mode.Leads.trans {mode mid mode' : Mode} {is js : List Item} (first : mode.Leads is mid)
    (second : mid.Leads js mode') : mode.Leads (is ++ js) mode' := by
  refine ⟨fun proper => second.proper (first.proper proper), fun string => ?_⟩
  rcases second.string string with ⟨inside, rfl⟩ | ⟨front, rfl⟩
  · rw [List.append_nil]
    exact first.string inside
  · exact .inr ⟨is ++ front, (List.append_assoc ..).symm⟩

theorem Mode.leads_run (mode : Mode) (is : List Item) (start : Nat) (chars : List Char) :
    mode.Leads is (.run start chars) :=
  ⟨fun _ => trivial, fun string => by cases string⟩

theorem itemsFrom_step (offset : Nat) (mode : Mode) (c : Char) :
    ∃ is mode', mode.Leads is mode' ∧
      ∀ cs, itemsFrom offset mode (c :: cs) = is ++ itemsFrom (offset + c.utf8Size) mode' cs := by
  cases mode with
  | run start chars =>
    by_cases separates : isSeparator c = true
    · by_cases quote : c = '"' ∨ c = '\''
      · refine ⟨endRun start chars ++ [.gap], .string c false, ⟨fun _ => quote, ?_⟩, fun cs => ?_⟩
        · exact fun _ => .inr ⟨_, rfl⟩
        · simp only [itemsFrom, if_pos separates, if_pos quote, itemOf_quote quote, List.append_assoc,
            List.singleton_append]
      · refine ⟨endRun start chars ++ [itemOf c], .run (offset + c.utf8Size) [],
          Mode.leads_run _ _ _ _, fun cs => ?_⟩
        simp only [itemsFrom, if_pos separates, if_neg quote, List.append_assoc, List.singleton_append]
    · refine ⟨[], .run start (c :: chars), Mode.leads_run _ _ _ _, fun cs => ?_⟩
      simp only [itemsFrom, if_neg separates, List.nil_append]
  | string quote escaped =>
    have inside (escaped' : Bool) :
        (Mode.string quote escaped).Leads [] (.string quote escaped') :=
      ⟨id, fun _ => .inl ⟨rfl, rfl⟩⟩
    by_cases skipped : escaped = true
    · exact ⟨[], _, inside false, fun cs => by simp only [itemsFrom, if_pos skipped, List.nil_append]⟩
    by_cases escape : c = '\\'
    · refine ⟨[], _, inside true, fun cs => ?_⟩
      simp only [itemsFrom, if_neg skipped, if_pos escape, List.nil_append]
    by_cases closes : c = quote
    · refine ⟨[], .run (offset + c.utf8Size) [], Mode.leads_run _ _ _ _, fun cs => ?_⟩
      simp only [itemsFrom, if_neg skipped, if_neg escape, if_pos closes, List.nil_append]
    · refine ⟨[], _, inside false, fun cs => ?_⟩
      simp only [itemsFrom, if_neg skipped, if_neg escape, if_neg closes, List.nil_append]

theorem itemsFrom_through (xs : List Char) (offset : Nat) (mode : Mode) :
    ∃ is mode', mode.Leads is mode' ∧ ∀ ys, itemsFrom offset mode (xs ++ ys) =
      is ++ itemsFrom (offset + (String.ofList xs).utf8ByteSize) mode' ys := by
  induction xs generalizing offset mode with
  | nil => exact ⟨[], mode, ⟨id, fun string => .inl ⟨string, rfl⟩⟩, fun ys => rfl⟩
  | cons c xs ih =>
    obtain ⟨is, mid, first, eq⟩ := itemsFrom_step offset mode c
    obtain ⟨js, mode', second, eq'⟩ := ih (offset + c.utf8Size) mid
    refine ⟨is ++ js, mode', first.trans second, fun ys => ?_⟩
    rw [List.cons_append, eq, eq', utf8ByteSize_ofList_cons, List.append_assoc, Nat.add_assoc]

/-! ## Words on both sides of a gap -/

theorem wordsIn_gap (skip functions : List String) (is : List Item) :
    ∃ functions', ∀ rest, wordsIn skip functions (is ++ .gap :: rest) =
      wordsIn skip functions is ++ wordsIn skip functions' rest := by
  have other {rest : List Item} (no : ∀ more, rest = .opening :: more → False) (later : List Item) :
      (rest ++ .gap :: later).head? ≠ some .opening := by
    cases rest with
    | nil => nofun
    | cons i rest =>
      intro head
      obtain rfl := Option.some.inj head
      exact no rest rfl
  fun_induction wordsIn skip functions is with
  | case1 functions => exact ⟨functions, fun rest => rfl⟩
  | case2 functions w is ih => exact ih
  | case3 functions w is no skipped ih =>
    obtain ⟨functions', eq⟩ := ih
    refine ⟨functions', fun rest => ?_⟩
    rw [List.cons_append, wordsIn_run (other no rest), if_pos skipped, ← eq]
    rfl
  | case4 functions w is no kept ih =>
    obtain ⟨functions', eq⟩ := ih
    refine ⟨functions', fun rest => ?_⟩
    rw [List.cons_append, wordsIn_run (other no rest), if_neg kept, eq]
    rfl
  | case5 functions is ih | case6 functions is ih | case7 functions is ih => exact ih

end Value

end SheetLint
