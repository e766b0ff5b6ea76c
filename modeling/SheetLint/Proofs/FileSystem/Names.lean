import SheetLint.Glob.Search
import SheetLint.Proofs.FileSystem.Rewrite
import SheetLint.Proofs.Path.Components

namespace SheetLint

namespace Path

theorem zero_free_join {directory entry : String} (nonempty : directory ≠ "")
    (relative : isAbsolute entry = false) (free : '\x00' ∉ directory.toList)
    (free' : '\x00' ∉ entry.toList) : '\x00' ∉ (join directory entry).toList := by
  rcases join_eq nonempty relative with ⟨-, joined⟩ | joined
  · simp [joined, free, free']
  · simp [joined, free, free']

theorem idle_of_components {path : String} (here : components path = [.current]) :
    isAbsolute path = false ∧ ∀ s ∈ segments path, isIdle s = true := by
  have idle {rest : List (List Char)} (empty : laterComponents rest = []) :
      ∀ s ∈ rest, isIdle s = true := by
    have kept := List.map_eq_nil_iff.1 empty
    intro s mem
    simpa using List.filter_eq_nil_iff.1 kept s mem
  unfold components at here
  split at here
  · cases here
  next first rest split' =>
    split at here
    · cases here
    next relative =>
      refine ⟨eq_false_of_ne_true relative, ?_⟩
      split at here
      next dot =>
        rw [split', dot]
        exact List.forall_mem_cons.2 ⟨rfl, idle (List.cons.inj here).2⟩
      next =>
        obtain ⟨s, -, current⟩ := List.mem_map.1 (here ▸ List.mem_cons_self :
          Component.current ∈ laterComponents (first :: rest))
        unfold componentOf at current
        split at current <;> cases current

end Path

structure IsName (name : String) : Prop where
  plain : '/' ∉ name.toList
  zero_free : '\x00' ∉ name.toList
  not_idle : Path.isIdle name.toList = false
  not_parent : name ≠ ".."
  short : name.utf8ByteSize ≤ FileSystem.maxNameBytes

instance (name : String) : Decidable (IsName name) :=
  decidable_of_iff ('/' ∉ name.toList ∧ '\x00' ∉ name.toList ∧ Path.isIdle name.toList = false ∧
      name ≠ ".." ∧ name.utf8ByteSize ≤ FileSystem.maxNameBytes)
    ⟨fun ⟨a, b, c, d, e⟩ => ⟨a, b, c, d, e⟩, fun ⟨a, b, c, d, e⟩ => ⟨a, b, c, d, e⟩⟩

theorem IsName.ne_empty {name : String} (h : IsName name) : name ≠ "" := by
  rintro rfl
  cases h.not_idle

theorem IsName.segments_eq {name : String} (h : IsName name) :
    Path.segments name = [name.toList] := by
  rw [Path.segments_eq_splitOn, List.splitOn_eq_singleton h.plain]

/-- Whether the names in a directory, and in every directory below it, are names and differ. -/
def Entry.WellNamed (e : Entry) : Prop :=
  ∀ names refusal es, e.descend? names = some (.directory refusal es) →
    (∀ c ∈ es, IsName c.1) ∧ (es.map Prod.fst).Nodup

theorem Entry.descend?_append (e : Entry) (front names : List String) :
    e.descend? (front ++ names) = (e.descend? front).bind (·.descend? names) := by
  induction front generalizing e with
  | nil => rfl
  | cons name front ih =>
    rw [List.cons_append, descend?, descend?]
    cases e.child? name with
    | none => rfl
    | some child => exact ih child

theorem Entry.child?_of_mem (refusal : Option IoError) {es : List (String × Entry)}
    (distinct : (es.map Prod.fst).Nodup) {c : String × Entry} (mem : c ∈ es) :
    child? (.directory refusal es) c.1 = some c.2 := by
  induction es with
  | nil => cases mem
  | cons e es ih =>
    obtain ⟨n, e⟩ := e
    rw [List.map_cons, List.nodup_cons] at distinct
    rw [child?_cons]
    rcases List.mem_cons.1 mem with rfl | later
    · exact if_pos rfl
    · have other : n ≠ c.1 := by
        intro same
        rw [same] at distinct
        exact distinct.1 (List.mem_map.2 ⟨c, later, rfl⟩)
      rw [if_neg other]
      exact ih distinct.2 later

theorem Entry.wellNamed_file (contents : Except IoError String) : (Entry.file contents).WellNamed := by
  intro way refusal es leads
  cases way with
  | nil => cases leads
  | cons name way =>
    obtain ⟨_, _, _, ⟨⟩, -, -⟩ := Entry.descend?_cons leads

theorem Entry.wellNamed_directory {refusal : Option IoError} {es : List (String × Entry)}
    (names : ∀ c ∈ es, IsName c.1) (distinct : (es.map Prod.fst).Nodup)
    (below : ∀ c ∈ es, c.2.WellNamed) : (Entry.directory refusal es).WellNamed := by
  intro way refusal' es' leads
  cases way with
  | nil =>
    cases leads
    exact ⟨names, distinct⟩
  | cons name way =>
    obtain ⟨_, _, child, ⟨⟩, present, leads⟩ := Entry.descend?_cons leads
    obtain ⟨c, found, rfl⟩ := Option.map_eq_some_iff.1 present
    exact below c (List.mem_of_find?_eq_some found) way refusal' es' leads

namespace FileSystem

variable {fs : FileSystem}

theorem walk_append {links : Nat} {here there : List String} {segments : List (List Char)}
    (h : fs.walk true links here segments = .ok there) :
    ∃ left, ∀ more, fs.walk true links here (segments ++ more) = fs.walk true left there more := by
  induction links, segments using walk_induction generalizing here with
  | nil links =>
    rw [walk_nil] at h
    cases h
    exact ⟨links, fun more => rfl⟩
  | cons links segment rest onward fewer =>
    rw [walk_cons] at h
    simp only [List.cons_append, walk_cons]
    split at h
    · cases h
    next place => exact onward h
    next name target =>
      simp only [Bool.not_true, Bool.and_false, Bool.false_eq_true, if_false] at h ⊢
      cases links with
      | zero => cases h
      | succ links =>
        obtain ⟨left, same⟩ := fewer links (Nat.lt_succ_self links) _ h
        refine ⟨left, fun more => ?_⟩
        rw [← same more, List.append_assoc]

theorem turn_idle {segment : List Char} (idle : Path.isIdle segment = true) (here : List String) :
    fs.turn here segment = .ok (.place here) ∨
      ∀ segment, fs.turn here segment = .error .notADirectory := by
  simp only [turn, idle, if_true]
  cases fs.root.descend? here with
  | none => exact .inr fun _ => rfl
  | some e =>
    cases e with
    | file | link => exact .inr fun _ => rfl
    | directory refusal es => exact .inl rfl

theorem walk_drop_idle {idle segment : List Char} (h : Path.isIdle idle = true) (links : Nat)
    (here : List String) (front : List (List Char)) :
    fs.walk true links here (front ++ idle :: [segment]) =
      fs.walk true links here (front ++ [segment]) := by
  have first (links : Nat) (here : List String) :
      fs.walk true links here (idle :: [segment]) = fs.walk true links here [segment] := by
    rcases turn_idle h here with place | refused
    · rw [walk_cons, place]
    · rw [walk_cons, walk_cons, refused, refused]
  induction links, front using walk_induction generalizing here with
  | nil links => exact first links here
  | cons links s front onward fewer =>
    rw [List.cons_append, List.cons_append, walk_cons, walk_cons]
    -- A link puts the segments of its target before those that are left, so both keep their ends.
    simp only [onward, Bool.not_true, Bool.and_false, Bool.false_eq_true, if_false]
    cases links with
    | zero => rfl
    | succ links =>
      simp only [← List.append_assoc, fewer links (Nat.lt_succ_self links)]

theorem walk_of_idle {follow : Bool} {links : Nat} {here there : List String}
    {segments : List (List Char)} (idle : ∀ s ∈ segments, Path.isIdle s = true)
    (h : fs.walk follow links here segments = .ok there) : there = here := by
  induction segments with
  | nil =>
    rw [walk_nil] at h
    cases h
    rfl
  | cons segment rest ih =>
    rw [List.forall_mem_cons] at idle
    rw [walk_cons] at h
    rcases turn_idle idle.1 here with place | refused
    · rw [place] at h
      exact ih idle.2 h
    · rw [refused] at h
      cases h

theorem turn_name {there : List String} {refusal : Option IoError} {es : List (String × Entry)}
    (directory : fs.root.descend? there = some (.directory refusal es)) {name : String}
    (isName : IsName name) {e : Entry} (found : (Entry.directory refusal es).child? name = some e)
    (plain : ∀ target, e ≠ .link target) : fs.turn there name.toList = .ok (.place (there ++ [name])) := by
  have other : name.toList ≠ ['.', '.'] := by
    intro parent
    apply isName.not_parent
    rw [← String.ofList_toList (s := name), parent]
  rw [FileSystem.turn, directory]
  simp only [isName.not_idle, Bool.false_eq_true, if_false, other, String.ofList_toList,
    Nat.not_lt.2 isName.short, found]

section WellNamed

variable {there : List String} {refusal : Option IoError} {es : List (String × Entry)}
  {c : String × Entry}

theorem walk_name (well : fs.root.WellNamed)
    (directory : fs.root.descend? there = some (.directory refusal es)) (mem : c ∈ es)
    (plain : ∀ target, c.2 ≠ .link target) (links : Nat) :
    fs.walk true links there [c.1.toList] = .ok (there ++ [c.1]) := by
  obtain ⟨names, distinct⟩ := well there refusal es directory
  rw [walk_cons, turn_name directory (names c mem) (Entry.child?_of_mem refusal distinct mem) plain]
  exact walk_nil ..

theorem descend?_name (well : fs.root.WellNamed)
    (directory : fs.root.descend? there = some (.directory refusal es)) (mem : c ∈ es) :
    fs.root.descend? (there ++ [c.1]) = some c.2 := by
  rw [Entry.descend?_append, directory, Option.bind_some, Entry.descend?,
    Entry.child?_of_mem refusal (well there refusal es directory).2 mem]
  rfl

end WellNamed

theorem resolve_eq_ok_iff {path : String} {names : List String} :
    fs.resolve true path = .ok names ↔ path ≠ "" ∧ '\x00' ∉ path.toList ∧
      fs.walk true maxLinks (if Path.isAbsolute path then [] else fs.workingDirectory)
        (Path.segments path) = .ok names := by
  rw [resolve]
  split
  next empty => simp [String.isEmpty_iff.1 empty]
  next nonempty =>
    split
    next zero => simp_all
    next => simp_all

theorem lookup_eq_ok_iff {path : String} {e : Entry} :
    fs.lookup path = .ok e ↔
      ∃ names, fs.resolve true path = .ok names ∧ fs.root.descend? names = some e := by
  rw [lookup]
  cases fs.resolve true path with
  | error e => simp
  | ok names => cases found : fs.root.descend? names <;> simp [found]

theorem lookup_of_walk {path : String} (nonempty : path ≠ "") (zero_free : '\x00' ∉ path.toList)
    (relative : Path.isAbsolute path = false) {names : List String} {e : Entry}
    (walked : fs.walk true maxLinks fs.workingDirectory (Path.segments path) = .ok names)
    (leads : fs.root.descend? names = some e) : fs.lookup path = .ok e := by
  refine lookup_eq_ok_iff.2 ⟨names, resolve_eq_ok_iff.2 ⟨nonempty, zero_free, ?_⟩, leads⟩
  rwa [relative, if_neg Bool.false_ne_true]

section WorkingDirectory

variable {refusal : Option IoError} {es : List (String × Entry)}
  (here : fs.root.descend? fs.workingDirectory = some (.directory refusal es))

include here

theorem lookup_current : fs.lookup "." = .ok (.directory refusal es) := by
  have relative : Path.isAbsolute "." = false := Path.not_isAbsolute_of_plain (by decide)
  refine lookup_of_walk (by decide) (by decide) relative ?_ here
  have single : Path.segments "." = [['.']] := by decide
  have place : fs.turn fs.workingDirectory ['.'] = .ok (.place fs.workingDirectory) := by
    rw [FileSystem.turn, here]
    rfl
  rw [single, walk_cons, place]
  exact walk_nil ..

theorem lookup_name {name : String} (isName : IsName name) {e : Entry}
    (found : (Entry.directory refusal es).child? name = some e)
    (plain : ∀ target, e ≠ .link target) : fs.lookup name = .ok e := by
  have walked : fs.walk true maxLinks fs.workingDirectory (Path.segments name) =
      .ok (fs.workingDirectory ++ [name]) := by
    rw [isName.segments_eq, walk_cons, turn_name here isName found plain]
    exact walk_nil ..
  refine lookup_of_walk isName.ne_empty isName.zero_free
    (Path.not_isAbsolute_of_plain isName.plain) walked ?_
  rw [Entry.descend?_append, here, Option.bind_some, Entry.descend?, found]
  rfl

end WorkingDirectory

theorem lookup_entryPath (well : fs.root.WellNamed) {directory : String} {refusal : Option IoError}
    {es : List (String × Entry)} (listed : fs.lookup directory = .ok (.directory refusal es))
    {c : String × Entry} (mem : c ∈ es) (plain : ∀ target, c.2 ≠ .link target) :
    fs.lookup (Glob.Query.entryPath directory c.1) = .ok c.2 := by
  obtain ⟨there, leads, here⟩ := lookup_eq_ok_iff.1 listed
  obtain ⟨nonempty, zero_free, walked⟩ := resolve_eq_ok_iff.1 leads
  have name := (well there refusal es here).1 c mem
  have relative := Path.not_isAbsolute_of_plain name.plain
  refine lookup_eq_ok_iff.2 ⟨there ++ [c.1], resolve_eq_ok_iff.2 ?_, descend?_name well here mem⟩
  unfold Glob.Query.entryPath
  split
  next current =>
    obtain ⟨relative', idle⟩ := Path.idle_of_components current
    rw [relative'] at walked
    obtain rfl := walk_of_idle idle walked
    refine ⟨name.ne_empty, name.zero_free, ?_⟩
    rw [relative, name.segments_eq]
    exact walk_name well here mem plain maxLinks
  next =>
    obtain ⟨front, -, ends, joined⟩ := Path.segments_join nonempty relative
    obtain ⟨left, onward⟩ := walk_append walked
    have filled : Path.join directory c.1 ≠ "" := by
      rcases Path.join_eq nonempty relative with ⟨-, joined⟩ | joined
      · simp [joined, nonempty]
      · simp [joined]
    refine ⟨filled, Path.zero_free_join nonempty relative zero_free name.zero_free, ?_⟩
    rw [Path.isAbsolute_join nonempty relative, joined, name.segments_eq]
    refine .trans ?_ ((onward _).trans (walk_name well here mem plain left))
    rcases ends with ends | ends
    · rw [ends]
    · rw [ends, List.append_assoc]
      exact (walk_drop_idle rfl _ _ front).symm

end FileSystem

end SheetLint
