/-!
Paths. A path is a text; slashes cut it into segments. Its components leave out what changes
nothing: empty segments, and dots that are not in front. Two paths with the same components are the
same path.
-/

namespace SheetLint.Path

inductive Component where
  | root
  | current
  | parent
  | name (name : String)
deriving DecidableEq, Repr

def segments (path : String) : List (List Char) :=
  path.toList.foldr
    (fun c segments => if c = '/' then [] :: segments else segments.modifyHead (c :: ·)) [[]]

def ofSegments (segments : List (List Char)) : String :=
  String.ofList (['/'].intercalate segments)

def isAbsolute (path : String) : Bool :=
  path.toList.head? == some '/'

/-- Whether a segment that is not in front changes nothing. -/
def isIdle (segment : List Char) : Bool :=
  segment.isEmpty || segment == ['.']

def componentOf (segment : List Char) : Component :=
  if segment = ['.', '.'] then .parent else .name (String.ofList segment)

def laterComponents (segments : List (List Char)) : List Component :=
  (segments.filter fun s => !isIdle s).map componentOf

def components (path : String) : List Component :=
  match segments path with
  | [] => []
  | first :: rest =>
    if isAbsolute path then .root :: laterComponents rest
    else if first = ['.'] then .current :: laterComponents rest
    else laterComponents (first :: rest)

/-- The path to an entry, seen from a directory. An absolute path stays as it is. -/
def join (directory entry : String) : String :=
  if isAbsolute entry || directory.isEmpty then entry
  else if directory.toList.getLast? = some '/' then directory ++ entry
  else directory ++ "/" ++ entry

/-- Segments without the idle ones at the end; the segment in front is kept. -/
def dropIdleEnd (segments : List (List Char)) : List (List Char) :=
  match segments with
  | [] => []
  | first :: rest => first :: (rest.reverse.dropWhile isIdle).reverse

/-- The path without its last component, as it is written. The root and the empty path have no
parent. -/
def parent? (path : String) : Option String :=
  match dropIdleEnd (segments path) with
  | [] => none
  | [first] =>
    if isAbsolute path || first.isEmpty then none else some ""
  | first :: second :: rest =>
    let before := dropIdleEnd (first :: (second :: rest).dropLast)
    if isAbsolute path && before.length = 1 then some "/" else some (ofSegments before)

/-- The number of characters that segments take with a slash behind each. -/
def weight : List (List Char) → Nat
  | [] => 0
  | s :: segments => s.length + 1 + weight segments

theorem weight_segments (path : String) : weight (segments path) = path.length + 1 := by
  have onChars (cs : List Char) :
      weight (cs.foldr
        (fun c segments => if c = '/' then [] :: segments else segments.modifyHead (c :: ·)) [[]])
        = cs.length + 1
        ∧ cs.foldr
          (fun c segments => if c = '/' then [] :: segments else segments.modifyHead (c :: ·)) [[]]
          ≠ [] := by
    induction cs with
    | nil => simp [weight]
    | cons c cs ih =>
      obtain ⟨sum, some⟩ := ih
      rw [List.foldr_cons]
      split
      · refine ⟨?_, List.cons_ne_nil _ _⟩
        simp only [weight, List.length_nil, List.length_cons]
        omega
      · obtain ⟨s, ss, split_eq⟩ := List.exists_cons_of_ne_nil some
        rw [split_eq] at sum ⊢
        refine ⟨?_, List.cons_ne_nil _ _⟩
        simp only [List.modifyHead_cons, weight, List.length_cons] at sum ⊢
        omega
  rw [← String.length_toList]
  exact (onChars path.toList).1

theorem length_ofSegments {segments : List (List Char)} (h : segments ≠ []) :
    (ofSegments segments).length + 1 = weight segments := by
  have onChars (s : List Char) (ss : List (List Char)) :
      (['/'].intercalate (s :: ss)).length + 1 = weight (s :: ss) := by
    induction ss generalizing s with
    | nil => simp [weight, List.intercalate]
    | cons t ts ih =>
      have := ih t
      simp only [List.intercalate, List.intersperse_cons_cons, List.flatten_cons, List.length_append,
        weight, List.length_cons, List.length_nil] at this ⊢
      omega
  obtain ⟨s, ss, rfl⟩ := List.exists_cons_of_ne_nil h
  unfold ofSegments
  rw [String.length_ofList]
  exact onChars s ss

theorem weight_append (xs ys : List (List Char)) : weight (xs ++ ys) = weight xs + weight ys := by
  induction xs with
  | nil => simp [weight]
  | cons x xs ih =>
    rw [List.cons_append, weight, weight, ih]
    omega

theorem weight_reverse (xs : List (List Char)) : weight xs.reverse = weight xs := by
  induction xs with
  | nil => rfl
  | cons x xs ih =>
    rw [List.reverse_cons, weight_append, ih]
    simp only [weight]
    omega

theorem weight_dropIdleEnd (segments : List (List Char)) :
    weight (dropIdleEnd segments) ≤ weight segments := by
  cases segments with
  | nil => simp [dropIdleEnd]
  | cons s ss =>
    have parts : weight (ss.reverse.takeWhile isIdle) + weight (ss.reverse.dropWhile isIdle)
        = weight ss := by
      rw [← weight_append, List.takeWhile_append_dropWhile, weight_reverse]
    have kept := weight_reverse (ss.reverse.dropWhile isIdle)
    have cons (xs : List (List Char)) : weight (s :: xs) = s.length + 1 + weight xs := by
      simp [weight]
    rw [dropIdleEnd, cons, cons]
    omega

theorem parent?_length {path parent : String} (h : parent? path = some parent) :
    parent.length < path.length := by
  have whole := weight_segments path
  have trimmed := weight_dropIdleEnd (segments path)
  unfold parent? at h
  split at h
  · simp at h
  · next first hd =>
    split at h
    · simp at h
    · next named =>
      cases h
      rw [hd] at trimmed
      simp only [Bool.or_eq_true, not_or, List.isEmpty_iff] at named
      have := List.length_pos_iff.mpr named.2
      have one : weight [first] = first.length + 1 := by simp [weight]
      simp; omega
  · next first second rest hd =>
    rw [hd] at trimmed
    have before := weight_dropIdleEnd (first :: (second :: rest).dropLast)
    have shorter : weight (first :: (second :: rest).dropLast) < weight (first :: second :: rest) := by
      have last := List.dropLast_concat_getLast (List.cons_ne_nil second rest)
      have := weight_append (first :: (second :: rest).dropLast)
        [(second :: rest).getLast (List.cons_ne_nil second rest)]
      rw [List.cons_append, last] at this
      have one (x : List Char) : 0 < weight [x] := by simp [weight]
      have := one ((second :: rest).getLast (List.cons_ne_nil second rest))
      omega
    simp only at h
    split at h
    · next root =>
      cases h
      simp only [Bool.and_eq_true, isAbsolute, beq_iff_eq] at root
      have short : ¬path.length ≤ 1 := by
        intro short
        rw [← String.length_toList] at short
        cases chars : path.toList with
        | nil => simp [chars] at root
        | cons c cs =>
          obtain rfl : cs = [] := by simpa [chars] using short
          obtain rfl : c = '/' := by simpa [chars] using root.1
          simp [segments, chars, dropIdleEnd, isIdle] at hd
      have : "/".length = 1 := rfl
      omega
    · cases h
      have := length_ofSegments
        (show dropIdleEnd (first :: (second :: rest).dropLast) ≠ [] by simp [dropIdleEnd])
      omega

def fileName? (path : String) : Option String :=
  match (components path).getLast? with
  | some (.name n) => some n
  | _ => none

/-- What follows the last dot of a name, unless that is the first character. -/
def extension? (path : String) : Option String :=
  match fileName? path with
  | none => none
  | some name =>
    let reversed := name.toList.reverse
    match reversed.dropWhile (· != '.') with
    | [] => none
    | [_] => none
    | _ :: _ :: _ => some (String.ofList (reversed.takeWhile (· != '.')).reverse)

def Component.text : Component → String
  | root => "/"
  | current => "."
  | parent => ".."
  | name n => n

def afterStart? : List Component → List Component → Option (List Component)
  | [], components => some components
  | _ :: _, [] => none
  | a :: start, b :: components => if a = b then afterStart? start components else none

/-- A path as it is shown when everything is seen from a base: an absolute path below the base
leaves the base out. -/
def display (source : String) (base : Option String) : String :=
  match base with
  | none => source
  | some base =>
    if isAbsolute source && isAbsolute base then
      match afterStart? (components base) (components source) with
      | none => source
      | some (.parent :: _) => source
      | some rest => "/".intercalate (rest.map Component.text)
    else source

end SheetLint.Path
