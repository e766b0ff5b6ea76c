import SheetLint.FileSystem

namespace SheetLint

namespace Entry

mutual

/-- The same tree with nothing in its files. -/
def emptied : Entry → Entry
  | .file _ => .file (.ok "")
  | .directory refusal es => .directory refusal (emptiedAll es)
  | .link target => .link target

def emptiedAll : List (String × Entry) → List (String × Entry)
  | [] => []
  | (name, e) :: es => (name, e.emptied) :: emptiedAll es

end

theorem emptiedAll_eq (es : List (String × Entry)) :
    emptiedAll es = es.map fun e => (e.1, e.2.emptied) := by
  induction es with
  | nil => rw [emptiedAll, List.map_nil]
  | cons e es ih => rw [emptiedAll, ih, List.map_cons]

theorem child?_emptied (e : Entry) (name : String) :
    e.emptied.child? name = (e.child? name).map emptied := by
  cases e with
  | file contents =>
    rw [emptied]
    rfl
  | link target =>
    rw [emptied]
    rfl
  | directory refusal es =>
    rw [emptied, emptiedAll_eq, child?, child?, entries, entries, List.find?_map, Option.map_map,
      Option.map_map]
    rfl

theorem descend?_emptied (e : Entry) (names : List String) :
    e.emptied.descend? names = (e.descend? names).map emptied := by
  induction names generalizing e with
  | nil => rfl
  | cons name names ih =>
    rw [descend?, descend?, child?_emptied]
    cases e.child? name with
    | none => rfl
    | some child => exact ih child

theorem isDirectory_emptied (e : Entry) : e.emptied.isDirectory = e.isDirectory := by
  cases e <;> rw [emptied] <;> rfl

mutual

theorem height_emptied : ∀ e : Entry, e.emptied.height = e.height
  | .file _ => by rw [emptied, height, height]
  | .link _ => by rw [emptied]
  | .directory _ es => by rw [emptied, height, height, heights_emptied es]

theorem heights_emptied : ∀ es : List (String × Entry),
    height.heights (emptiedAll es) = height.heights es
  | [] => by rw [emptiedAll]
  | (_, e) :: es => by
    rw [emptiedAll, height.heights, height.heights, height_emptied e, heights_emptied es]

end

end Entry

namespace FileSystem

/-! ## One segment after the other -/

inductive Turn where
  | place (there : List String)
  | link (name target : String)
deriving DecidableEq, Repr

def turn (fs : FileSystem) (here : List String) (segment : List Char) : Except IoError Turn :=
  match fs.root.descend? here with
  | some (.directory refusal es) =>
    if Path.isIdle segment then .ok (.place here)
    else if segment = ['.', '.'] then .ok (.place here.dropLast)
    else if maxNameBytes < (String.ofList segment).utf8ByteSize then .error .nameTooLong
    else
      match Entry.child? (.directory refusal es) (String.ofList segment) with
      | none => .error .notFound
      | some (.link target) => .ok (.link (String.ofList segment) target)
      | some _ => .ok (.place (here ++ [String.ofList segment]))
  | _ => .error .notADirectory

theorem walk_nil (fs : FileSystem) (follow : Bool) (links : Nat) (here : List String) :
    fs.walk follow links here [] = .ok here := by
  rw [walk]

theorem walk_cons (fs : FileSystem) (follow : Bool) (links : Nat) (here : List String)
    (segment : List Char) (rest : List (List Char)) :
    fs.walk follow links here (segment :: rest) =
      match fs.turn here segment with
      | .error e => .error e
      | .ok (.place there) => fs.walk follow links there rest
      | .ok (.link name target) =>
        if rest.isEmpty && !follow then .ok (here ++ [name])
        else
          match links with
          | 0 => .error .tooManyLinks
          | links + 1 =>
            fs.walk follow links (if Path.isAbsolute target then [] else here)
              (Path.segments target ++ rest) := by
  rw [walk, turn]
  cases fs.root.descend? here with
  | none => rfl
  | some e =>
    cases e with
    | file | link => rfl
    | directory refusal es =>
      dsimp only
      split
      · rfl
      · split
        · rfl
        · split
          · rfl
          · cases Entry.child? (.directory refusal es) (String.ofList segment) with
            | none => rfl
            | some child => cases child <;> rfl

@[elab_as_elim]
theorem walk_induction {motive : Nat → List (List Char) → Prop} (nil : ∀ links, motive links [])
    (cons : ∀ links segment rest, motive links rest →
      (∀ fewer < links, ∀ segments, motive fewer segments) → motive links (segment :: rest))
    (links : Nat) (segments : List (List Char)) : motive links segments := by
  induction links using Nat.strongRecOn generalizing segments with
  | ind links fewer =>
    induction segments with
    | nil => exact nil links
    | cons segment rest onward => exact cons links segment rest onward fewer

/-! ## Nothing in the files -/

def emptied (fs : FileSystem) : FileSystem :=
  { fs with root := fs.root.emptied }

theorem turn_emptied (fs : FileSystem) (here : List String) (segment : List Char) :
    fs.emptied.turn here segment = fs.turn here segment := by
  rw [turn, turn, emptied, Entry.descend?_emptied]
  cases fs.root.descend? here with
  | none => rfl
  | some e =>
    cases e with
    | file | link =>
      rw [Option.map_some, Entry.emptied]
    | directory refusal es =>
      have children := Entry.child?_emptied (.directory refusal es) (String.ofList segment)
      rw [Entry.emptied] at children
      simp only [Option.map_some, Entry.emptied, children]
      cases Entry.child? (.directory refusal es) (String.ofList segment) with
      | none => rfl
      | some child =>
        cases child <;> simp only [Option.map_some, Entry.emptied]

theorem walk_emptied (fs : FileSystem) (follow : Bool) (links : Nat) (here : List String)
    (segments : List (List Char)) :
    fs.emptied.walk follow links here segments = fs.walk follow links here segments := by
  induction links, segments using walk_induction generalizing here with
  | nil links => rw [walk_nil, walk_nil]
  | cons links segment rest onward fewer =>
    rw [walk_cons, walk_cons, turn_emptied]
    cases links with
    | zero => simp only [onward]
    | succ links => simp only [onward, fewer links (Nat.lt_succ_self links)]

theorem resolve_emptied (fs : FileSystem) (follow : Bool) (path : String) :
    fs.emptied.resolve follow path = fs.resolve follow path := by
  rw [resolve, resolve, walk_emptied]
  rfl

theorem lookup_emptied (fs : FileSystem) (path : String) :
    fs.emptied.lookup path = (fs.lookup path).map Entry.emptied := by
  rw [lookup, lookup, resolve_emptied]
  cases fs.resolve true path with
  | error e => rfl
  | ok names =>
    simp only [emptied, Entry.descend?_emptied]
    cases fs.root.descend? names <;> rfl

theorem isDirectory_emptied (fs : FileSystem) (path : String) :
    fs.emptied.isDirectory path = fs.isDirectory path := by
  rw [isDirectory, isDirectory, lookup_emptied]
  cases fs.lookup path with
  | error e => rfl
  | ok e => exact e.isDirectory_emptied

theorem exists?_emptied (fs : FileSystem) (path : String) :
    fs.emptied.exists? path = fs.exists? path := by
  have same : fs.emptied.found path = fs.found path := by
    rw [found, found, lookup_emptied]
    cases fs.lookup path <;> rfl
  rw [exists?, exists?, same, resolve_emptied]

theorem list_emptied (fs : FileSystem) (path : String) :
    fs.emptied.list path = (fs.list path).map (·.map fun e => (e.1, e.2.emptied)) := by
  rw [list, list, lookup_emptied]
  cases fs.lookup path with
  | error e => rfl
  | ok e =>
    cases e with
    | file | link => simp only [Except.map, Entry.emptied]
    | directory refusal es =>
      cases refusal with
      | some e => simp only [Except.map, Entry.emptied]
      | none =>
        simp only [Except.map, Entry.emptied, Entry.emptiedAll_eq]
        rw [List.map_mergeSort]
        intro a _ b _
        rfl

end FileSystem

/-! ## One file rewritten -/

namespace Entry

theorem child?_cons (refusal : Option IoError) (n : String) (e : Entry) (es : List (String × Entry))
    (name : String) : child? (.directory refusal ((n, e) :: es)) name =
      if n = name then some e else child? (.directory refusal es) name := by
  rw [child?, entries, List.find?_cons]
  by_cases same : n = name
  · simp [same]
  · simp [same, child?, entries]

theorem exists_directory_of_child? {e child : Entry} {name : String}
    (found : e.child? name = some child) : ∃ refusal es, e = .directory refusal es := by
  cases e with
  | file | link => cases found
  | directory refusal es => exact ⟨refusal, es, rfl⟩

theorem child?_modifyEntry (refusal : Option IoError) (name name' : String)
    (f : Option Entry → Entry) (es : List (String × Entry)) :
    child? (.directory refusal (modifyEntry name f es)) name' =
      if name = name' then some (f (child? (.directory refusal es) name))
      else child? (.directory refusal es) name' := by
  induction es with
  | nil =>
    rw [modifyEntry, child?_cons]
    rfl
  | cons e es ih =>
    obtain ⟨n, e⟩ := e
    rw [modifyEntry]
    by_cases own : n = name
    · rw [if_pos own, child?_cons, child?_cons, child?_cons, if_pos own, own]
      split <;> rfl
    · rw [if_neg own, child?_cons, child?_cons, child?_cons, if_neg own, ih]
      by_cases other : n = name'
      · rw [if_pos other, if_pos other, if_neg]
        rintro rfl
        exact own other
      · rw [if_neg other, if_neg other]

theorem emptiedAll_modifyEntry {refusal : Option IoError} {name : String} {f : Option Entry → Entry}
    {es : List (String × Entry)} {child : Entry}
    (found : child? (.directory refusal es) name = some child)
    (same : (f (some child)).emptied = child.emptied) :
    emptiedAll (modifyEntry name f es) = emptiedAll es := by
  induction es with
  | nil => cases found
  | cons e es ih =>
    obtain ⟨n, e⟩ := e
    rw [child?_cons] at found
    rw [modifyEntry]
    by_cases own : n = name
    · rw [if_pos own] at found
      cases found
      rw [if_pos own, emptiedAll, emptiedAll, same]
    · rw [if_neg own] at found
      rw [if_neg own, emptiedAll, emptiedAll, ih found]

variable {e : Entry} {names : List String} {old contents : Except IoError String}

theorem descend?_cons {name : String} {found : Entry}
    (h : e.descend? (name :: names) = some found) : ∃ refusal es child,
      e = .directory refusal es ∧ e.child? name = some child ∧ child.descend? names = some found := by
  rw [descend?, Option.bind_eq_some_iff] at h
  obtain ⟨child, present, below⟩ := h
  obtain ⟨refusal, es, rfl⟩ := exists_directory_of_child? present
  exact ⟨refusal, es, child, rfl, present, below⟩

theorem emptied_put (file : e.descend? names = some (.file old)) :
    (put (.file contents) names e).emptied = e.emptied := by
  induction names generalizing e with
  | nil =>
    cases file
    rw [put, emptied, emptied]
  | cons name names ih =>
    obtain ⟨refusal, es, child, rfl, present, below⟩ := descend?_cons file
    rw [put, emptied, emptied, emptiedAll_modifyEntry present (ih below)]

theorem descend?_put_self (file : e.descend? names = some (.file old)) :
    (put (.file contents) names e).descend? names = some (.file contents) := by
  induction names generalizing e with
  | nil => rw [put, descend?]
  | cons name names ih =>
    obtain ⟨refusal, es, child, rfl, present, below⟩ := descend?_cons file
    rw [put, descend?, child?_modifyEntry, if_pos rfl, present]
    exact ih below

theorem descend?_put_of_ne (file : e.descend? names = some (.file old)) {names' : List String}
    (other : names' ≠ names) :
    (put (.file contents) names e).descend? names' = e.descend? names' ∨
      ∃ refusal es es', e.descend? names' = some (.directory refusal es) ∧
        (put (.file contents) names e).descend? names' = some (.directory refusal es') := by
  induction names generalizing e names' with
  | nil =>
    cases file
    cases names' with
    | nil => exact absurd rfl other
    | cons name' names' => exact .inl rfl
  | cons name names ih =>
    obtain ⟨refusal, es, child, rfl, present, below⟩ := descend?_cons file
    cases names' with
    | nil => exact .inr ⟨refusal, es, _, rfl, by rw [put, descend?]⟩
    | cons name' names' =>
      rw [put, descend?, descend?, child?_modifyEntry]
      by_cases same : name = name'
      · subst same
        rw [if_pos rfl, present]
        exact ih below fun h => other (by rw [h])
      · rw [if_neg same]
        exact .inl rfl

end Entry

namespace FileSystem

def rewrite (fs : FileSystem) (names : List String) (contents : Except IoError String) : FileSystem :=
  { fs with root := Entry.put (.file contents) names fs.root }

section Rewrite

variable {fs : FileSystem} {names : List String} {old contents : Except IoError String}

theorem emptied_rewrite (file : fs.root.descend? names = some (.file old)) :
    (fs.rewrite names contents).emptied = fs.emptied := by
  rw [emptied, emptied, rewrite, Entry.emptied_put file]

theorem resolve_rewrite (file : fs.root.descend? names = some (.file old)) (follow : Bool)
    (path : String) : (fs.rewrite names contents).resolve follow path = fs.resolve follow path := by
  rw [← resolve_emptied, emptied_rewrite file, resolve_emptied]

theorem isDirectory_rewrite (file : fs.root.descend? names = some (.file old)) (path : String) :
    (fs.rewrite names contents).isDirectory path = fs.isDirectory path := by
  rw [← isDirectory_emptied, emptied_rewrite file, isDirectory_emptied]

theorem read_rewrite (file : fs.root.descend? names = some (.file old)) {path : String}
    (leads : fs.resolve true path = .ok names) : (fs.rewrite names contents).read path = contents := by
  rw [read, lookup, resolve_rewrite file, leads]
  simp only [rewrite, Entry.descend?_put_self file]

theorem read_rewrite_of_ne (file : fs.root.descend? names = some (.file old)) {path : String}
    (elsewhere : fs.resolve true path ≠ .ok names) :
    (fs.rewrite names contents).read path = fs.read path := by
  rw [read, read, lookup, lookup, resolve_rewrite file]
  cases leads : fs.resolve true path with
  | error e => rfl
  | ok names' =>
    have other : names' ≠ names := by
      rintro rfl
      exact elsewhere leads
    simp only [rewrite]
    rcases Entry.descend?_put_of_ne file other with same | ⟨refusal, es, es', before, after⟩
    · rw [same]
    · rw [before, after]

end Rewrite

end FileSystem

end SheetLint
