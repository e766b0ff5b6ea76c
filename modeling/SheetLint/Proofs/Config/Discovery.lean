import SheetLint.Config.Discover
import SheetLint.Proofs.Path.Components

namespace SheetLint

namespace Path

variable {path directory : String} {n : Nat}

def depth (path : String) : Nat :=
  ((components path).filter (· ≠ .root)).length

def ancestor? (path : String) : Nat → Option String
  | 0 => some path
  | n + 1 => (parent? path).bind (ancestor? · n)

theorem depth_of_none (top : parent? path = none) : depth path = 0 := by
  rcases parent?_eq_none_iff.1 top with empty | root
  · rw [depth, empty]
    rfl
  · rw [depth, root]
    rfl

theorem depth_parent? (up : parent? path = some directory) : depth path = depth directory + 1 := by
  obtain ⟨c, other, longer⟩ := components_parent? up
  rw [depth, longer, List.filter_append, List.length_append, List.filter_singleton,
    decide_eq_true other]
  rfl

theorem isSome_ancestor?_iff (path : String) (n : Nat) :
    (ancestor? path n).isSome ↔ n ≤ depth path := by
  induction n generalizing path with
  | zero => simp [ancestor?]
  | succ n ih =>
    rw [ancestor?]
    cases up : parent? path with
    | none => simp [depth_of_none up]
    | some parent => rw [Option.bind_some, ih, depth_parent? up, Nat.add_le_add_iff_right]

theorem components_ancestor? (reached : ancestor? path n = some directory) :
    ∃ left, left.length = n ∧ components path = components directory ++ left := by
  induction n generalizing path with
  | zero =>
    cases reached
    exact ⟨[], rfl, (List.append_nil _).symm⟩
  | succ n ih =>
    obtain ⟨parent, up, reached⟩ := Option.bind_eq_some_iff.1 reached
    obtain ⟨left, rfl, longer⟩ := ih reached
    obtain ⟨c, -, longer'⟩ := components_parent? up
    exact ⟨left ++ [c], List.length_append, by rw [longer', longer, List.append_assoc]⟩

end Path

namespace Config

variable {isFile : String → Bool} {start path directory name : String} {n : Nat}

def Bare (isFile : String → Bool) (directory : String) : Prop :=
  ∀ name ∈ fileNames, isFile (Path.join directory name) = false

def Prefers (isFile : String → Bool) (directory name : String) : Prop :=
  ∃ before after, fileNames = before ++ name :: after ∧
    isFile (Path.join directory name) = true ∧
    ∀ other ∈ before, isFile (Path.join directory other) = false

/-- Whether a file in a directory is the one to be found from a start: the directory is reached by going
up `n` times, none before it has a configuration file, and it prefers this one. -/
structure Nearest (isFile : String → Bool) (start : String) (n : Nat) (directory name : String) :
    Prop where
  reached : Path.ancestor? start n = some directory
  prefers : Prefers isFile directory name
  bare : ∀ m < n, ∀ nearer, Path.ancestor? start m = some nearer → Bare isFile nearer

theorem fileIn?_eq_none_iff : fileIn? isFile directory = none ↔ Bare isFile directory := by
  simp [fileIn?, Bare]

theorem fileIn?_eq_some_iff : fileIn? isFile directory = some path ↔
    ∃ name, Prefers isFile directory name ∧ path = Path.join directory name := by
  rw [fileIn?, List.find?_eq_some_iff_append]
  constructor
  · rintro ⟨here, front, back, split, free⟩
    obtain ⟨before, more, names, rfl, same⟩ := List.map_eq_append_iff.1 split
    obtain ⟨name, after, rfl, rfl, rfl⟩ := List.map_eq_cons_iff.1 same
    refine ⟨name, ⟨before, after, names, here, fun other mem => ?_⟩, rfl⟩
    simpa using free _ (List.mem_map_of_mem mem)
  · rintro ⟨name, ⟨before, after, names, here, free⟩, rfl⟩
    refine ⟨here, before.map (Path.join directory), after.map (Path.join directory), ?_, ?_⟩
    · rw [names, List.map_append, List.map_cons]
    · simpa using free

theorem getElem?_wayUp (start : String) (n : Nat) : (wayUp start)[n]? = Path.ancestor? start n := by
  induction n generalizing start with
  | zero =>
    unfold wayUp
    split <;> rfl
  | succ n ih =>
    unfold wayUp
    split
    next top => rw [Path.ancestor?, top]; rfl
    next parent up =>
      rw [Path.ancestor?, up, List.getElem?_cons_succ, ih]
      rfl

theorem mem_wayUp_iff : directory ∈ wayUp start ↔ ∃ n, Path.ancestor? start n = some directory := by
  simp only [List.mem_iff_getElem?, getElem?_wayUp]

theorem discover_eq_none_iff : discover isFile start = none ↔
    ∀ n directory, Path.ancestor? start n = some directory → Bare isFile directory := by
  rw [discover, List.findSome?_eq_none_iff]
  simp only [mem_wayUp_iff, fileIn?_eq_none_iff]
  exact ⟨fun bare n directory reached => bare directory ⟨n, reached⟩,
    fun bare directory ⟨n, reached⟩ => bare n directory reached⟩

theorem discover_eq_some_iff : discover isFile start = some path ↔
    ∃ n directory name, Nearest isFile start n directory name ∧ path = Path.join directory name := by
  rw [discover, List.findSome?_eq_some_iff]
  -- A directory of the way up is known by the number of those before it.
  constructor
  · rintro ⟨nearer, directory, further, way, found, bare⟩
    obtain ⟨name, prefers, rfl⟩ := fileIn?_eq_some_iff.1 found
    refine ⟨nearer.length, directory, name, ⟨?_, prefers, ?_⟩, rfl⟩
    · rw [← getElem?_wayUp, way, List.getElem?_append_right (le_refl _), Nat.sub_self]
      rfl
    · intro m less other reached
      rw [← getElem?_wayUp, way, List.getElem?_append_left less] at reached
      exact fileIn?_eq_none_iff.1 (bare other (List.mem_of_getElem? reached))
  · rintro ⟨n, directory, name, ⟨reached, prefers, bare⟩, rfl⟩
    rw [← getElem?_wayUp] at reached
    obtain ⟨short, here⟩ := List.getElem?_eq_some_iff.1 reached
    refine ⟨(wayUp start).take n, directory, (wayUp start).drop (n + 1), ?_,
      fileIn?_eq_some_iff.2 ⟨name, prefers, rfl⟩, ?_⟩
    · rw [← here, List.getElem_cons_drop, List.take_append_drop]
    · intro nearer mem
      obtain ⟨m, less, rfl⟩ := List.mem_take_iff_getElem.1 mem
      apply fileIn?_eq_none_iff.2
      apply bare m (by omega)
      rw [← getElem?_wayUp]
      exact List.getElem?_eq_getElem _

theorem components_candidate (directory : String) (listed : name ∈ fileNames) :
    Path.components (Path.join directory name) = Path.components directory ++ [.name name] := by
  have plain : ∀ name ∈ fileNames, Path.isAbsolute name = false ∧
      Path.components name = [.name name] ∧
      Path.laterComponents (Path.segments name) = [.name name] := by
    decide
  obtain ⟨relative, single, later⟩ := plain name listed
  by_cases empty : directory = ""
  · rw [empty, Path.join_empty]
    exact single
  · rw [Path.components_join empty relative, later]

theorem not_isFile_of_isDirectory {fs : FileSystem} (directory : fs.isDirectory path = true) :
    fs.isFile path = false := by
  unfold FileSystem.isDirectory at directory
  unfold FileSystem.isFile
  cases found : fs.lookup path with
  | error e => rfl
  | ok e =>
    rw [found] at directory
    cases e with
    | file contents => cases directory
    | directory refusal es => rfl
    | link target => rfl

theorem exists_nearest_of_file (reached : Path.ancestor? start n = some directory)
    (listed : name ∈ fileNames) (file : isFile (Path.join directory name) = true) :
    ∃ m ≤ n, ∃ directory' name', Nearest isFile start m directory' name' ∧
      discover isFile start = some (Path.join directory' name') := by
  have holds : ¬Bare isFile directory := by
    intro bare
    cases file.symm.trans (bare name listed)
  cases found : discover isFile start with
  | none => exact absurd (discover_eq_none_iff.1 found n directory reached) holds
  | some path =>
    obtain ⟨m, directory', name', nearest, rfl⟩ := discover_eq_some_iff.1 found
    have near : m ≤ n := by
      by_contra far
      exact holds (nearest.bare n (Nat.lt_of_not_le far) directory reached)
    exact ⟨m, near, directory', name', nearest, rfl⟩

/-- One can go up only as often as the start has components, and every step leaves the last one out. The
file that is found stands where the first step reaches a directory that has one. A file further up is
never found in its place, whatever its name, and a directory is never taken for a file. -/
theorem discover_nearest (isFile : String → Bool) (start : String) :
    (∀ path, discover isFile start = some path ↔
      ∃ n directory name, Nearest isFile start n directory name ∧ path = Path.join directory name) ∧
    (discover isFile start = none ↔
      ∀ n directory, Path.ancestor? start n = some directory → Bare isFile directory) ∧
    (∀ n, (Path.ancestor? start n).isSome ↔ n ≤ Path.depth start) ∧
    (∀ n directory, Path.ancestor? start n = some directory →
      (∃ left, left.length = n ∧ Path.components start = Path.components directory ++ left) ∧
      ∀ name ∈ fileNames,
        Path.components (Path.join directory name) = Path.components directory ++ [.name name]) ∧
    (∀ n directory name, Path.ancestor? start n = some directory → name ∈ fileNames →
      isFile (Path.join directory name) = true → ∃ m ≤ n, ∃ directory' name',
        Nearest isFile start m directory' name' ∧
          discover isFile start = some (Path.join directory' name')) ∧
    ∀ (fs : FileSystem) (path : String), fs.isDirectory path = true →
      fs.isFile path = false ∧ discover fs.isFile start ≠ some path := by
  refine ⟨fun path => discover_eq_some_iff, discover_eq_none_iff, Path.isSome_ancestor?_iff start,
    fun n directory reached => ⟨Path.components_ancestor? reached, ?_⟩, ?_, ?_⟩
  · exact fun name listed => components_candidate directory listed
  · exact fun n directory name reached listed file => exists_nearest_of_file reached listed file
  · intro fs path directory
    have other := not_isFile_of_isDirectory directory
    refine ⟨other, fun found => ?_⟩
    obtain ⟨n, place, name, nearest, rfl⟩ := discover_eq_some_iff.1 found
    obtain ⟨before, after, names, file, free⟩ := nearest.prefers
    cases file.symm.trans other

def nestedFiles (path : String) : Bool :=
  ["/stylint.toml", "/work/stylint.json", "/work/stylint.yml"].contains path

def misnamed : FileSystem where
  root := .directory none [("stylint.toml", .directory none [])]
  workingDirectory := []

theorem discover_nested_files :
    discover nestedFiles "/work/site" = some "/work/stylint.yml" ∧
      discover misnamed.isFile "" ≠ some "stylint.toml" := by
  obtain ⟨found, -⟩ := discover_nearest nestedFiles "/work/site"
  obtain ⟨-, -, -, -, -, directories⟩ := discover_nearest misnamed.isFile ""
  have prefers : Prefers nestedFiles "/work" "stylint.yml" :=
    ⟨["stylint.toml", "stylint.yaml"], ["stylint.json"], rfl, by decide, by decide⟩
  have misled : misnamed.isDirectory "stylint.toml" = true := by
    have walked : misnamed.resolve true "stylint.toml" = .ok ["stylint.toml"] := by
      have segments : Path.segments "stylint.toml" = ["stylint.toml".toList] := rfl
      rw [FileSystem.resolve, segments]
      simp only [FileSystem.walk]
      rfl
    rw [FileSystem.isDirectory, FileSystem.lookup, walked]
    rfl
  refine ⟨(found _).2 ⟨1, "/work", "stylint.yml", ⟨rfl, prefers, ?_⟩, rfl⟩,
    (directories misnamed _ misled).2⟩
  intro m less nearer reached
  obtain rfl : m = 0 := by omega
  cases reached
  unfold Bare
  decide

end Config

end SheetLint
