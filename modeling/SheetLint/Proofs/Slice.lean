import SheetLint.Proofs.Source
import SheetLint.Proofs.Text.Trim

/-!
Slices that may fail. Members of a list are counted by their indices (`Slice.between?`), the characters
of a text by the bytes of its UTF-8 form (`Text.between?`); a slice fails if it goes backwards or past
the end, or if it cuts a character in two. What is found in a list or a text stands at an index or an
offset at which it can be cut.
-/

namespace SheetLint

/-- A difference, unless it is negative. -/
def subtract? (m n : Nat) : Option Nat :=
  if n ≤ m then some (m - n) else none

theorem subtract?_add (m n : Nat) : subtract? (m + n) n = some m := by
  rw [subtract?, if_pos (Nat.le_add_left n m), Nat.add_sub_cancel]

/-! ## Lists -/

namespace Slice

variable {α : Type} {p : α → Bool}

def between? (i j : Nat) (xs : List α) : Option (List α) :=
  if i ≤ j ∧ j ≤ xs.length then some ((xs.take j).drop i) else none

def from? (i : Nat) (xs : List α) : Option (List α) :=
  between? i xs.length xs

def upTo? (j : Nat) (xs : List α) : Option (List α) :=
  between? 0 j xs

theorem between?_append (before inner after : List α) :
    between? before.length (before.length + inner.length) (before ++ (inner ++ after)) = some inner := by
  have within : before.length + inner.length ≤ (before ++ (inner ++ after)).length := by simp
  rw [between?, if_pos ⟨Nat.le_add_right _ _, within⟩, ← List.append_assoc,
    ← List.length_append, List.take_left, List.drop_left]

theorem from?_append (before after : List α) : from? before.length (before ++ after) = some after := by
  have slice := between?_append before after []
  rwa [List.append_nil, ← List.length_append] at slice

theorem upTo?_append (before after : List α) : upTo? before.length (before ++ after) = some before := by
  have slice := between?_append [] before after
  rwa [List.nil_append, List.length_nil, Nat.zero_add] at slice

theorem getD_from?_append (before after : List α) :
    (from? (before.length + 1) (before ++ after)).getD [] = after.drop 1 := by
  cases after with
  | nil =>
    have past : ¬before.length + 1 ≤ (before ++ []).length := by simp
    rw [from?, between?, if_neg fun within => past within.1]
    rfl
  | cons a after =>
    have slice := from?_append (before ++ [a]) after
    rw [List.append_assoc, List.singleton_append, List.length_append, List.length_singleton] at slice
    rw [slice]
    rfl

theorem getElem?_append (before after : List α) : (before ++ after)[before.length]? = after.head? := by
  rw [List.getElem?_append_right (Nat.le_refl _), Nat.sub_self, List.head?_eq_getElem?]

theorem getD_findIdx? (p : α → Bool) (xs : List α) :
    (xs.findIdx? p).getD xs.length = (xs.takeWhile (!p ·)).length := by
  rw [← List.findIdx_eq_getD_findIdx?, List.takeWhile_eq_take_findIdx_not]
  simp [List.findIdx_le_length]

theorem findIdx?_of_dropWhile {c : α} {xs rest : List α} (cut : xs.dropWhile (!p ·) = c :: rest) :
    xs.findIdx? p = some (xs.takeWhile (!p ·)).length := by
  induction xs with
  | nil => cases cut
  | cons d xs ih =>
    rw [List.findIdx?_cons]
    cases here : p d with
    | true => simp [here]
    | false =>
      rw [List.dropWhile_cons_of_pos (by simp [here])] at cut
      simp [here, ih cut]

theorem findIdx?_of_dropWhile_nil {xs : List α} (cut : xs.dropWhile (!p ·) = []) :
    xs.findIdx? p = none := by
  rw [List.findIdx?_eq_none_iff]
  simpa using cut

def lastIdx? (p : α → Bool) (xs : List α) : Option Nat :=
  (xs.reverse.findIdx? p).map fun k => xs.length - 1 - k

theorem lastIdx?_append_cons {c : α} (here : p c = true) {tail : List α}
    (other : ∀ d ∈ tail, p d = false) (xs : List α) :
    lastIdx? p (xs ++ c :: tail) = some xs.length := by
  have none : tail.reverse.findIdx? p = none := by
    rw [List.findIdx?_eq_none_iff]
    exact fun d mem => other d (List.mem_reverse.1 mem)
  rw [lastIdx?, List.reverse_append, List.reverse_cons, List.append_assoc, List.findIdx?_append, none,
    List.singleton_append, List.findIdx?_cons, here]
  simp

def trim? (p : α → Bool) (xs : List α) : Option (List α) :=
  let start := (xs.findIdx? (!p ·)).getD xs.length
  let stop := ((lastIdx? (!p ·) xs).map (· + 1)).getD start
  between? start stop xs

theorem exists_dropEndWhile (p : α → Bool) (xs : List α) : ∃ tail, xs = Text.dropEndWhile p xs ++ tail ∧
    (∀ d ∈ tail, p d = true) ∧ ∀ d ∈ (Text.dropEndWhile p xs).getLast?, p d = false := by
  refine ⟨(xs.reverse.takeWhile p).reverse, ?_, ?_, ?_⟩
  · rw [Text.dropEndWhile, ← List.reverse_append, List.takeWhile_append_dropWhile, List.reverse_reverse]
  · intro d mem
    exact List.mem_takeWhile_imp (List.mem_reverse.1 mem)
  · intro d last
    rw [Text.dropEndWhile, List.getLast?_reverse] at last
    have stopped := List.head?_dropWhile_not p xs.reverse
    rw [Option.mem_def.1 last] at stopped
    exact stopped

theorem trim?_eq (p : α → Bool) (xs : List α) : trim? p xs = some (Text.trimWhile p xs) := by
  have lead : (xs.findIdx? (!p ·)).getD xs.length = (xs.takeWhile p).length := by
    rw [getD_findIdx?]
    simp
  have split : xs.takeWhile p ++ xs.dropWhile p = xs := List.takeWhile_append_dropWhile
  obtain ⟨tail, whole, dropped, ended⟩ := exists_dropEndWhile p (xs.dropWhile p)
  rw [trim?, lead, Text.trimWhile]
  rcases List.eq_nil_or_concat (Text.dropEndWhile p (xs.dropWhile p)) with empty | ⟨init, d, kept⟩
  · -- Every member is dropped.
    have none : lastIdx? (!p ·) xs = none := by
      rw [lastIdx?, Option.map_eq_none_iff, List.findIdx?_eq_none_iff]
      intro x mem
      rw [List.mem_reverse, ← split, whole, empty, List.nil_append, List.mem_append] at mem
      rcases mem with mem | mem
      · rw [List.mem_takeWhile_imp mem, Bool.not_true]
      · rw [dropped x mem, Bool.not_true]
    have slice := between?_append (xs.takeWhile p) [] (xs.dropWhile p)
    rw [List.nil_append, split] at slice
    rw [none, empty]
    exact slice
  · have last : lastIdx? (!p ·) xs = some (xs.takeWhile p ++ init).length := by
      have visible : (!p d) = true := by rw [ended d (by simp [kept]), Bool.not_false]
      have blank : ∀ e ∈ tail, (!p e) = false := fun e mem => by rw [dropped e mem, Bool.not_true]
      have found := lastIdx?_append_cons (p := (!p ·)) visible blank (xs.takeWhile p ++ init)
      rwa [List.append_assoc, List.append_cons, ← List.concat_eq_append, ← kept, ← whole, split] at found
    have slice := between?_append (xs.takeWhile p) (Text.dropEndWhile p (xs.dropWhile p)) tail
    rw [← whole, split] at slice
    have stop : (xs.takeWhile p ++ init).length + 1 =
        (xs.takeWhile p).length + (Text.dropEndWhile p (xs.dropWhile p)).length := by
      simp [kept, Nat.add_assoc]
    rwa [last, Option.map_some, Option.getD_some, stop]

end Slice

/-! ## Cursors -/

/-- A list that is read from an index on. -/
structure Cursor (α : Type) where
  items : List α
  next : Nat

namespace Cursor

variable {α : Type} {c : Cursor α}

def left (c : Cursor α) : List α :=
  c.items.drop c.next

def peek? (c : Cursor α) : Option α :=
  c.items[c.next]?

def advance (c : Cursor α) : Cursor α :=
  { c with next := c.next + 1 }

theorem peek?_eq (c : Cursor α) : c.peek? = c.left.head? :=
  List.head?_drop.symm

theorem left_eq_cons {a : α} (here : c.peek? = some a) : c.left = a :: c.advance.left := by
  obtain ⟨within, rfl⟩ := List.getElem?_eq_some_iff.1 here
  exact List.drop_eq_getElem_cons within

theorem left_eq_nil (ended : c.peek? = none) : c.left = [] := by
  rwa [peek?_eq, List.head?_eq_none_iff] at ended

end Cursor

/-! ## Texts -/

namespace Text

def size (cs : List Char) : Nat :=
  (String.ofList cs).utf8ByteSize

def from? (n : Nat) (cs : List Char) : Option (List Char) :=
  (takeBytes n cs).map fun before => cs.drop before.length

def between? (i j : Nat) (cs : List Char) : Option (List Char) :=
  if i ≤ j then (takeBytes j cs).bind (from? i) else none

theorem size_cons (c : Char) (cs : List Char) : size (c :: cs) = c.utf8Size + size cs :=
  utf8ByteSize_ofList_cons c cs

theorem size_append (cs ds : List Char) : size (cs ++ ds) = size cs + size ds :=
  utf8ByteSize_ofList_append cs ds

theorem size_singleton (c : Char) : size [c] = c.utf8Size := by
  rw [size_cons]
  rfl

theorem size_eq_length {cs : List Char} (ascii : ∀ c ∈ cs, c.utf8Size = 1) : size cs = cs.length :=
  utf8ByteSize_ofList_of_ascii ascii

theorem takeBytes_size (before after : List Char) :
    takeBytes (size before) (before ++ after) = some before :=
  takeBytes_append before after

theorem takeBytes_eq_some_iff {n : Nat} {cs before : List Char} :
    takeBytes n cs = some before ↔ ∃ after, cs = before ++ after ∧ size before = n := by
  constructor
  · intro cut
    fun_induction takeBytes n cs generalizing before with
    | case1 cs =>
      cases cut
      exact ⟨cs, rfl, rfl⟩
    | case2 => cases cut
    | case3 n c cs fits ih =>
      obtain ⟨more, inner, rfl⟩ := Option.map_eq_some_iff.1 cut
      obtain ⟨after, rfl, size⟩ := ih inner
      refine ⟨after, rfl, ?_⟩
      rw [size_cons, size]
      omega
    | case4 => cases cut
  · rintro ⟨after, rfl, rfl⟩
    exact takeBytes_size before after

theorem from?_append (before after : List Char) : from? (size before) (before ++ after) = some after := by
  rw [from?, takeBytes_size, Option.map_some, List.drop_left]

theorem between?_append (before inner after : List Char) :
    between? (size before) (size before + size inner) (before ++ (inner ++ after)) = some inner := by
  rw [between?, if_pos (Nat.le_add_right _ _), ← size_append, ← List.append_assoc, takeBytes_size]
  exact from?_append before inner

example : between? 1 3 "aé".toList = some ['é'] ∧ between? 1 2 "aé".toList = none := by decide

/-- The first offset of a character that passes a test, which also sees the rest of the text, when the
text begins at an offset. -/
def findFrom (p : Char → List Char → Bool) (offset : Nat) : List Char → Option Nat
  | [] => none
  | c :: cs => if p c cs then some offset else findFrom p (offset + c.utf8Size) cs

theorem getD_findFrom (p : Char → Bool) (offset : Nat) (cs : List Char) :
    (findFrom (fun c _ => p c) offset cs).getD (offset + size cs) =
      offset + size (cs.takeWhile (!p ·)) := by
  induction cs generalizing offset with
  | nil => rfl
  | cons c cs ih =>
    rw [findFrom]
    cases here : p c with
    | true => simp [here, size]
    | false =>
      have later := ih (offset + c.utf8Size)
      rw [Nat.add_assoc, ← size_cons] at later
      rw [if_neg Bool.false_ne_true, later, List.takeWhile_cons_of_pos (by simp [here]), size_cons,
        Nat.add_assoc]

end Text

/-! ## Flags -/

def splitImportant? (raw : List Char) : Option (List Char × Bool) :=
  if importantFlag.isSuffixOf (Text.lowerAscii raw) then do
    let cut ← subtract? (Text.size raw) (Text.size importantFlag)
    let kept ← Text.takeBytes cut raw
    some (Text.trimEnd kept, true)
  else some (raw, false)

theorem utf8Size_toLower (c : Char) : c.toLower.utf8Size = c.utf8Size := by
  unfold Char.toLower
  split_ifs with upper
  · have small : c.val.toNat ≤ 90 := upper.2
    have lower : (c.val + 32).toNat = c.val.toNat + 32 := by
      rw [UInt32.toNat_add]
      change (c.val.toNat + 32) % 2 ^ 32 = c.val.toNat + 32
      omega
    have one : c.utf8Size = 1 := Char.utf8Size_eq_one_iff.2 (Nat.le_trans small (by decide))
    rw [one, Char.utf8Size_eq_one_iff, UInt32.le_iff_toNat_le]
    change (c.val + 32).toNat ≤ 127
    omega
  · rfl

theorem size_lowerAscii (cs : List Char) : Text.size (Text.lowerAscii cs) = Text.size cs := by
  induction cs with
  | nil => rfl
  | cons c cs ih =>
    rw [Text.size_cons, ← ih, ← utf8Size_toLower, ← Text.size_cons]
    rfl

theorem splitImportant?_eq (raw : List Char) : splitImportant? raw = some (splitImportant raw) := by
  rw [splitImportant?]
  by_cases flagged : importantFlag <:+ Text.lowerAscii raw
  · obtain ⟨lowered, split⟩ := flagged
    obtain ⟨before, flag, rfl, -, same⟩ := List.map_eq_append_iff.1 split.symm
    have sizes : Text.size (before ++ flag) = Text.size before + Text.size importantFlag := by
      rw [Text.size_append, ← same]
      exact congrArg _ (size_lowerAscii flag).symm
    rw [if_pos (List.isSuffixOf_iff_suffix.2 ⟨lowered, split⟩), sizes, subtract?_add,
      splitImportant_append before same]
    simp only [Option.bind_eq_bind, Option.bind_some, Text.takeBytes_size]
  · rw [if_neg (fun flag => flagged (List.isSuffixOf_iff_suffix.1 flag)), splitImportant_of_not]
    rintro before flag rfl same
    refine flagged ⟨Text.lowerAscii before, ?_⟩
    rw [← same, Text.lowerAscii, Text.lowerAscii, Text.lowerAscii, List.map_append]

end SheetLint
