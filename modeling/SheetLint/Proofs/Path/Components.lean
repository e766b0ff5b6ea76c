import Mathlib.Data.List.DropRight
import SheetLint.Path

namespace SheetLint.Path

variable {path parent directory entry : String} {first segment : List Char}
  {ss rest : List (List Char)}

/-! ## Segments -/

theorem segments_eq_splitOn (path : String) : segments path = path.toList.splitOn '/' := by
  have onChars (cs : List Char) :
      cs.foldr (fun c segments => if c = '/' then [] :: segments else segments.modifyHead (c :: ·))
        [[]] = cs.splitOn '/' := by
    induction cs with
    | nil => rfl
    | cons c cs ih =>
      rw [List.foldr_cons, ih, List.splitOn_cons_eq_if_modifyHead]
      simp only [beq_iff_eq]
  exact onChars path.toList

theorem exists_segments (path : String) : ∃ first rest, segments path = first :: rest := by
  rw [segments_eq_splitOn]
  exact List.exists_cons_of_ne_nil (List.splitOn_ne_nil _ _)

theorem plain_of_mem_segments (mem : segment ∈ segments path) : '/' ∉ segment := by
  have onChars (cs : List Char) : ∀ s ∈ cs.splitOn '/', '/' ∉ s := by
    induction cs with
    | nil => simp
    | cons c cs ih =>
      obtain ⟨first, rest, split'⟩ := List.exists_cons_of_ne_nil (List.splitOn_ne_nil '/' cs)
      rw [split', List.forall_mem_cons] at ih
      rw [List.splitOn_cons_eq_if_modifyHead, split']
      split
      next => exact List.forall_mem_cons.2 ⟨List.not_mem_nil, List.forall_mem_cons.2 ih⟩
      next other =>
        rw [List.modifyHead_cons, List.forall_mem_cons, List.mem_cons, not_or]
        exact ⟨⟨fun same => other (beq_iff_eq.2 same.symm), ih.1⟩, ih.2⟩
  rw [segments_eq_splitOn] at mem
  exact onChars path.toList segment mem

theorem segments_ofSegments (nonempty : ss ≠ []) (plain : ∀ s ∈ ss, '/' ∉ s) :
    segments (ofSegments ss) = ss := by
  rw [segments_eq_splitOn, ofSegments, String.toList_ofList, List.splitOn_intercalate _ plain nonempty]

theorem isAbsolute_iff : isAbsolute path = true ↔ ∃ second rest, segments path = [] :: second :: rest := by
  rw [isAbsolute, beq_iff_eq, segments_eq_splitOn]
  cases path.toList with
  | nil => simp
  | cons c cs =>
    obtain ⟨second, rest, split'⟩ := List.exists_cons_of_ne_nil (List.splitOn_ne_nil '/' cs)
    rw [List.splitOn_cons_eq_if_modifyHead, split']
    by_cases slash : c = '/' <;> simp [slash]

theorem first_of_isAbsolute (split : segments path = first :: rest) (absolute : isAbsolute path = true) :
    first = [] := by
  obtain ⟨second, more, split'⟩ := isAbsolute_iff.1 absolute
  rw [split] at split'
  exact (List.cons.inj split').1

/-! ## Components -/

theorem laterComponents_append (xs ys : List (List Char)) :
    laterComponents (xs ++ ys) = laterComponents xs ++ laterComponents ys := by
  rw [laterComponents, laterComponents, laterComponents, List.filter_append, List.map_append]

theorem laterComponents_of_idle (idle : ∀ s ∈ ss, isIdle s = true) : laterComponents ss = [] := by
  rw [laterComponents, List.map_eq_nil_iff, List.filter_eq_nil_iff]
  intro s mem
  simp [idle s mem]

theorem laterComponents_of_not_idle (solid : ∀ s ∈ ss, isIdle s = false) :
    laterComponents ss = ss.map componentOf := by
  rw [laterComponents, List.filter_eq_self.2 fun s mem => by simp [solid s mem]]

theorem laterComponents_rdropWhile (ss : List (List Char)) :
    laterComponents (ss.rdropWhile isIdle) = laterComponents ss := by
  have idle : laterComponents (ss.rtakeWhile isIdle) = [] :=
    laterComponents_of_idle fun s mem => List.mem_rtakeWhile_imp mem
  conv_rhs => rw [← List.rdropWhile_append_rtakeWhile (p := isIdle) (l := ss)]
  rw [laterComponents_append, idle, List.append_nil]

def frontComponents (absolute : Bool) (first : List Char) : List Component :=
  if absolute then [.root] else if first = ['.'] then [.current] else laterComponents [first]

theorem components_eq (split : segments path = first :: rest) :
    components path = frontComponents (isAbsolute path) first ++ laterComponents rest := by
  rw [components, split, frontComponents]
  simp only
  split_ifs
  · rfl
  · rfl
  · rw [← laterComponents_append]
    rfl

theorem componentOf_ne_root (segment : List Char) : componentOf segment ≠ .root := by
  unfold componentOf
  split <;> nofun

theorem exists_frontComponents (nonempty : first ≠ []) :
    ∃ c, c ≠ .root ∧ frontComponents false first = [c] := by
  by_cases dot : first = ['.']
  · exact ⟨.current, nofun, by rw [dot]; rfl⟩
  · have solid : isIdle first = false := by simp [isIdle, nonempty, dot]
    refine ⟨componentOf first, componentOf_ne_root first, ?_⟩
    rw [frontComponents, if_neg Bool.false_ne_true, if_neg dot]
    exact laterComponents_of_not_idle (List.forall_mem_singleton.2 solid)

/-! ## Joining -/

theorem not_isAbsolute_of_plain {name : String} (plain : '/' ∉ name.toList) :
    isAbsolute name = false := by
  rw [isAbsolute, beq_eq_false_iff_ne]
  intro head
  exact plain (List.mem_of_mem_head? head)

theorem join_of_isAbsolute (directory : String) (absolute : isAbsolute entry = true) :
    join directory entry = entry := by
  rw [join, absolute, Bool.true_or, if_pos rfl]

theorem join_empty (entry : String) : join "" entry = entry := by
  have empty : "".isEmpty = true := rfl
  rw [join, empty, Bool.or_true, if_pos rfl]

theorem join_eq (nonempty : directory ≠ "") (relative : isAbsolute entry = false) :
    directory.toList.getLast? = some '/' ∧ join directory entry = directory ++ entry ∨
      join directory entry = directory ++ "/" ++ entry := by
  have present : directory.isEmpty = false := by simpa using nonempty
  unfold join
  rw [relative, present, Bool.or_false, if_neg Bool.false_ne_true]
  split
  next slash => exact .inl ⟨slash, rfl⟩
  next => exact .inr rfl

theorem segments_join (nonempty : directory ≠ "") (relative : isAbsolute entry = false) :
    ∃ front, front ≠ [] ∧ (segments directory = front ∨ segments directory = front ++ [[]]) ∧
      segments (join directory entry) = front ++ segments entry := by
  simp only [segments_eq_splitOn]
  rcases join_eq nonempty relative with ⟨slash, joined⟩ | joined
  · obtain ⟨front, ends⟩ := List.getLast?_eq_some_iff.1 slash
    refine ⟨front.splitOn '/', List.splitOn_ne_nil _ _, .inr ?_, ?_⟩
    · rw [ends, List.splitOn_append_cons_self]
      rfl
    · rw [joined, String.toList_append, ends, List.append_assoc, List.singleton_append,
        List.splitOn_append_cons_self]
  · refine ⟨directory.toList.splitOn '/', List.splitOn_ne_nil _ _, .inl rfl, ?_⟩
    have whole : (directory ++ "/" ++ entry).toList = directory.toList ++ '/' :: entry.toList := by
      simp
    rw [joined, whole, List.splitOn_append_cons_self]

theorem isAbsolute_join (nonempty : directory ≠ "") (relative : isAbsolute entry = false) :
    isAbsolute (join directory entry) = isAbsolute directory := by
  have chars : directory.toList ≠ [] := by simpa using nonempty
  obtain ⟨c, cs, first⟩ := List.exists_cons_of_ne_nil chars
  rcases join_eq nonempty relative with ⟨-, joined⟩ | joined
  · rw [joined, isAbsolute, isAbsolute, String.toList_append, first]
    rfl
  · rw [joined, isAbsolute, isAbsolute, String.toList_append, String.toList_append, first]
    rfl

theorem components_join (nonempty : directory ≠ "") (relative : isAbsolute entry = false) :
    components (join directory entry) = components directory ++ laterComponents (segments entry) := by
  obtain ⟨front, filled, ends, joined⟩ := segments_join nonempty relative
  obtain ⟨first, rest, rfl⟩ := List.exists_cons_of_ne_nil filled
  rw [List.cons_append] at joined
  rw [components_eq joined, isAbsolute_join nonempty relative, laterComponents_append, ← List.append_assoc]
  congr 1
  rcases ends with ends | ends
  · rw [components_eq ends]
  · rw [List.cons_append] at ends
    have idle : laterComponents [[]] = [] := rfl
    rw [components_eq ends, laterComponents_append, idle, List.append_nil]

/-! ## The parent -/

theorem dropIdleEnd_cons (first : List Char) (rest : List (List Char)) :
    dropIdleEnd (first :: rest) = first :: rest.rdropWhile isIdle :=
  rfl

theorem not_isIdle_of_rdropWhile {init : List (List Char)}
    (kept : rest.rdropWhile isIdle = init ++ [segment]) : isIdle segment = false := by
  have nonempty : rest.rdropWhile isIdle ≠ [] := by simp [kept]
  have last := List.rdropWhile_last_not isIdle rest nonempty
  simpa [kept] using last

theorem parent?_of_short (split : segments path = first :: rest)
    (short : rest.rdropWhile isIdle = []) :
    parent? path = if isAbsolute path || first.isEmpty then none else some "" := by
  rw [parent?, split, dropIdleEnd_cons, short]

theorem parent?_of_long {init : List (List Char)} (split : segments path = first :: rest)
    (long : rest.rdropWhile isIdle = init ++ [segment]) :
    parent? path = if isAbsolute path && (init.rdropWhile isIdle).isEmpty then some "/"
      else some (ofSegments (first :: init.rdropWhile isIdle)) := by
  obtain ⟨second, more, cons⟩ : ∃ second more, init ++ [segment] = second :: more :=
    List.exists_cons_of_ne_nil (by simp)
  rw [parent?, split, dropIdleEnd_cons, long, cons]
  simp only
  rw [← cons, List.dropLast_concat, dropIdleEnd_cons]
  cases init.rdropWhile isIdle <;> simp

section Before

variable {kept : List (List Char)}

theorem segments_before (split : segments path = first :: rest) (part : kept ⊆ rest) :
    segments (ofSegments (first :: kept)) = first :: kept := by
  apply segments_ofSegments (List.cons_ne_nil _ _)
  intro s mem
  have mem' : s ∈ segments path := by
    rw [split]
    exact List.cons_subset_cons first part mem
  exact plain_of_mem_segments mem'

theorem isAbsolute_before (split : segments path = first :: rest) (part : kept ⊆ rest)
    (long : rest ≠ []) (nonempty : isAbsolute path = true → kept ≠ []) :
    isAbsolute (ofSegments (first :: kept)) = isAbsolute path := by
  rw [Bool.eq_iff_iff]
  constructor
  · intro absolute
    have empty := first_of_isAbsolute (segments_before split part) absolute
    obtain ⟨second, more, rfl⟩ := List.exists_cons_of_ne_nil long
    exact isAbsolute_iff.2 ⟨second, more, empty ▸ split⟩
  · intro absolute
    have empty := first_of_isAbsolute split absolute
    obtain ⟨second, more, rfl⟩ := List.exists_cons_of_ne_nil (nonempty absolute)
    exact isAbsolute_iff.2 ⟨second, more, empty ▸ segments_before split part⟩

end Before

theorem exists_parent_of_long {init : List (List Char)} (split : segments path = first :: rest)
    (long : rest.rdropWhile isIdle = init ++ [segment]) :
    ∃ parent, parent? path = some parent ∧
      components path = components parent ++ [componentOf segment] := by
  have last : laterComponents [segment] = [componentOf segment] :=
    laterComponents_of_not_idle (List.forall_mem_singleton.2 (not_isIdle_of_rdropWhile long))
  rw [components_eq split, ← laterComponents_rdropWhile rest, parent?_of_long split long, long,
    laterComponents_append, last, ← List.append_assoc, ← laterComponents_rdropWhile init]
  -- The root cannot be written by segments alone: one empty segment is the empty path.
  by_cases root : isAbsolute path = true ∧ init.rdropWhile isIdle = []
  · refine ⟨"/", by simp [root], ?_⟩
    rw [root.1, root.2]
    rfl
  · have part : init.rdropWhile isIdle ⊆ rest := by
      have before : init.rdropWhile isIdle <+: init ++ [segment] :=
        (List.rdropWhile_prefix isIdle init).trans (List.prefix_append init [segment])
      exact (before.trans (long ▸ List.rdropWhile_prefix isIdle rest)).subset
    have nonempty : rest ≠ [] := by
      rintro rfl
      simp at long
    have same := isAbsolute_before split part nonempty fun absolute empty => root ⟨absolute, empty⟩
    rw [← List.isEmpty_iff, ← Bool.and_eq_true] at root
    refine ⟨_, if_neg root, ?_⟩
    rw [components_eq (segments_before split part), same]

theorem parent?_cases (path : String) :
    parent? path = none ∧ (components path = [] ∨ components path = [.root]) ∨
      ∃ parent c, parent? path = some parent ∧ c ≠ .root ∧
        components path = components parent ++ [c] := by
  obtain ⟨first, rest, split⟩ := exists_segments path
  rcases List.eq_nil_or_concat' (rest.rdropWhile isIdle) with short | ⟨init, segment, long⟩
  · have nothing : laterComponents [] = [] := rfl
    rw [parent?_of_short split short, components_eq split, ← laterComponents_rdropWhile rest, short,
      nothing, List.append_nil]
    cases absolute : isAbsolute path with
    | true => exact .inl ⟨rfl, .inr rfl⟩
    | false =>
      by_cases empty : first = []
      · rw [empty]
        exact .inl ⟨rfl, .inl rfl⟩
      · obtain ⟨c, other, single⟩ := exists_frontComponents empty
        refine .inr ⟨"", c, ?_, other, single⟩
        simp [empty]
  · obtain ⟨parent, up, longer⟩ := exists_parent_of_long split long
    exact .inr ⟨parent, _, up, componentOf_ne_root segment, longer⟩

theorem parent?_eq_none_iff :
    parent? path = none ↔ components path = [] ∨ components path = [.root] := by
  rcases parent?_cases path with ⟨top, ends⟩ | ⟨parent, c, up, other, longer⟩
  · exact iff_of_true top ends
  · refine iff_of_false (by simp [up]) ?_
    rw [longer, List.append_eq_nil_iff, List.append_eq_cons_iff]
    simp [other]

theorem components_parent? (up : parent? path = some parent) :
    ∃ c, c ≠ .root ∧ components path = components parent ++ [c] := by
  rcases parent?_cases path with ⟨top, -⟩ | ⟨parent', c, up', other, longer⟩
  · cases top.symm.trans up
  · cases up'.symm.trans up
    exact ⟨c, other, longer⟩

end SheetLint.Path
