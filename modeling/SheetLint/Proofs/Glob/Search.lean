import SheetLint.Proofs.Except
import SheetLint.Proofs.FileSystem.Names

namespace SheetLint.Glob

namespace Query

variable {fs : FileSystem} {q : Query} {fuel : Nat} {component : List Token} {more : List (List Token)}

/-! ## Nothing in the files -/

theorem placeAt_emptied (fs : FileSystem) (path : String) :
    placeAt fs.emptied path = placeAt fs path := by
  rw [placeAt, placeAt, FileSystem.isDirectory_emptied]

theorem placeOf_emptied (fs : FileSystem) (path : String) (e : Entry) :
    placeOf fs.emptied path e.emptied = placeOf fs path e := by
  cases e with
  | file | directory => rw [Entry.emptied, placeOf, placeOf]
  | link target => rw [Entry.emptied, placeOf, placeOf, placeAt_emptied]

theorem advance_emptied
    (same : ∀ components here, below fs.emptied q fuel components here = below fs q fuel components here)
    (more : List (List Token)) (here : Place) :
    advance fs.emptied q fuel more here = advance fs q fuel more here := by
  rw [advance, advance, same]

theorem visit_emptied
    (same : ∀ components here, below fs.emptied q fuel components here = below fs q fuel components here)
    (component : List Token) (more : List (List Token)) (name : String) (here : Place) :
    visit fs.emptied q fuel component more name here = visit fs q fuel component more name here := by
  rw [visit, visit]
  simp only [same, advance_emptied same]

theorem below_emptied (fs : FileSystem) (q : Query) (fuel : Nat) (components : List (List Token))
    (here : Place) : below fs.emptied q fuel components here = below fs q fuel components here := by
  induction fuel generalizing components here with
  | zero => rw [below, below]
  | succ fuel ih =>
    cases components with
    | nil => simp only [below]
    | cons component more =>
      rw [below, below]
      simp only [FileSystem.exists?_emptied, FileSystem.list_emptied, placeAt_emptied,
        advance_emptied ih, visit_emptied ih]
      cases fs.list here.path with
      | error e => rfl
      | ok entries =>
        simp only [Except.map, List.flatMap_map, placeOf_emptied]

end Query

theorem search_emptied (fs : FileSystem) (pattern : String) :
    search fs.emptied pattern = search fs pattern := by
  have same (q : Query) : q.search fs.emptied = q.search fs := by
    have height : fs.emptied.root.height = fs.root.height := fs.root.height_emptied
    rw [Query.search, Query.search, Query.below_emptied, Query.placeAt_emptied, Query.maxSteps,
      Query.maxSteps, height]
  rw [search, search, funext same]

/-! ## Directories that could not be listed -/

/-- Whether what a match says of its path is so: that it leads to a directory which cannot be listed,
and why. -/
def Match.Holds (fs : FileSystem) : Match → Prop
  | .found _ => True
  | .unreadable path e => fs.isDirectory path = true ∧ fs.list path = .error e

def Place.Honest (fs : FileSystem) (p : Place) : Prop :=
  p.isDirectory = fs.isDirectory p.path

theorem exists_of_list {fs : FileSystem} {path : String} {entries : List (String × Entry)}
    (listed : fs.list path = .ok entries) :
    ∃ es, fs.lookup path = .ok (.directory none es) ∧ ∀ c ∈ entries, c ∈ es := by
  unfold FileSystem.list at listed
  split at listed
  · cases listed
  next es leads =>
    cases listed
    exact ⟨es, leads, fun c mem => List.mem_mergeSort.1 mem⟩
  · cases listed
  · cases listed

namespace Query

variable {fs : FileSystem} {q : Query} {fuel : Nat} {component : List Token} {more : List (List Token)}
  {here : Place}

theorem honest_placeAt (fs : FileSystem) (path : String) : (placeAt fs path).Honest fs :=
  rfl

theorem honest_placeOf (well : fs.root.WellNamed) {directory : String}
    {entries : List (String × Entry)} (listed : fs.list directory = .ok entries)
    {c : String × Entry} (mem : c ∈ entries) :
    (placeOf fs (entryPath directory c.1) c.2).Honest fs := by
  obtain ⟨es, leads, among⟩ := exists_of_list listed
  have direct (plain : ∀ target, c.2 ≠ .link target) :=
    FileSystem.lookup_entryPath well leads (among c mem) plain
  generalize c.2 = e at *
  cases e with
  | link target => exact honest_placeAt fs _
  | file | directory =>
    have leads := direct (by intro target same; cases same)
    rw [placeOf, Place.Honest, FileSystem.isDirectory, leads]
    rfl

section Steps

variable (holds : ∀ components (here : Place), here.Honest fs →
  ∀ m ∈ below fs q fuel components here, m.Holds fs)
include holds

theorem holds_advance (honest : here.Honest fs) :
    ∀ m ∈ advance fs q fuel more here, m.Holds fs := by
  intro m mem
  unfold advance arrive at mem
  split at mem
  · split at mem
    · cases mem
    · cases List.mem_singleton.1 mem
      trivial
  · exact holds more here honest m mem

theorem holds_visit {name : String} (honest : here.Honest fs) :
    ∀ m ∈ visit fs q fuel component more name here, m.Holds fs := by
  intro m mem
  unfold visit at mem
  split at mem
  · split at mem
    · split at mem
      · rcases List.mem_cons.1 mem with rfl | mem
        · trivial
        · exact holds _ here honest m mem
      · cases mem
    next next more' dropped =>
      have own : m ∈ (if matchesAll next name.toList then advance fs q fuel more' here else []) →
          m.Holds fs := by
        intro mem
        exact holds_advance holds honest m (List.mem_ite_nil_right.1 mem).2
      by_cases directory : here.isDirectory = true
      · simp only [if_pos directory] at mem
        rcases List.mem_append.1 mem with mem | mem
        · exact own mem
        · exact holds _ here honest m mem
      · simp only [if_neg directory] at mem
        exact own mem
  · split at mem
    · exact holds_advance holds honest m mem
    · cases mem

end Steps

theorem holds_below (well : fs.root.WellNamed) {components : List (List Token)}
    (honest : here.Honest fs) : ∀ m ∈ below fs q fuel components here, m.Holds fs := by
  induction fuel generalizing components here with
  | zero =>
    rw [below]
    exact List.forall_mem_nil _
  | succ fuel ih =>
    have onward : ∀ components (here : Place), here.Honest fs →
        ∀ m ∈ below fs q fuel components here, m.Holds fs := fun _ _ => ih
    cases components with
    | nil =>
      simp only [below]
      exact List.forall_mem_nil _
    | cons component more =>
      intro m mem
      rw [below] at mem
      split at mem
      · exact holds_advance onward (honest_placeAt fs _) m (List.mem_ite_nil_right.1 mem).2
      · split at mem
        next directory =>
          split at mem
          next e refused =>
            cases List.mem_singleton.1 mem
            exact ⟨honest ▸ directory, refused⟩
          next entries listed =>
            rcases List.mem_append.1 mem with mem | mem
            · obtain ⟨name, -, mem⟩ := List.mem_flatMap.1 mem
              exact holds_advance onward (honest_placeAt fs _) m mem
            · obtain ⟨c, among, mem⟩ := List.mem_flatMap.1 mem
              exact holds_visit onward (honest_placeOf well listed among) m mem
        next => cases mem

end Query

theorem holds_search {fs : FileSystem} (well : fs.root.WellNamed) {pattern : String}
    {found : List Match} (searched : search fs pattern = .ok found) : ∀ m ∈ found, m.Holds fs := by
  obtain ⟨q, -, rfl⟩ := map_eq_ok_iff.1 searched
  exact Query.holds_below well (Query.honest_placeAt fs _)

/-! ## Patterns of one component -/

theorem Query.path_placeOf (fs : FileSystem) (path : String) (e : Entry) :
    (placeOf fs path e).path = path := by
  cases e <;> rfl

theorem Query.ofPattern_component {pattern : String} {component : List Token} (nonempty : pattern ≠ "")
    (plain : '/' ∉ pattern.toList) (read : tokens pattern.toList = .ok component) :
    ofPattern pattern = .ok ⟨[component], false, false⟩ := by
  have filled : pattern.toList ≠ [] := by rwa [Ne, String.toList_eq_nil_iff]
  have single : componentTexts pattern.toList = [pattern.toList] := by
    rw [componentTexts, Path.segments_eq_splitOn, String.toList_ofList,
      List.splitOn_eq_singleton plain, List.getLast?_singleton, if_neg (by simpa using filled)]
  have last : pattern.toList.getLast? ≠ some '/' := fun last => plain (List.mem_of_getLast? last)
  have each : [pattern.toList].mapM tokens = .ok [component] := by
    rw [List.mapM_cons, read]
    rfl
  have closed : pattern.toList.isEmpty = false := by simpa using filled
  rw [ofPattern, read, Path.not_isAbsolute_of_plain plain]
  simp only [Bool.false_eq_true, if_false, single, each, closed, last, decide_false]

theorem search_component {fs : FileSystem} {pattern : String} {component : List Token}
    {entries : List (String × Entry)} (nonempty : pattern ≠ "") (plain : '/' ∉ pattern.toList)
    (read : tokens pattern.toList = .ok component) (open' : literal? component = none) (flat : Query.isRecursive component = false)
    (hidden : Query.dotEntries component = []) (listed : fs.list "." = .ok entries) :
    search fs pattern = .ok ((entries.filter fun e => matchesAll component e.1.toList).map
      fun e => .found e.1) := by
  obtain ⟨es, leads, -⟩ := exists_of_list listed
  have directory : fs.isDirectory "." = true := by
    rw [FileSystem.isDirectory, leads]
    rfl
  obtain ⟨n, steps⟩ : ∃ n, Query.maxSteps fs ⟨[component], false, false⟩ = n + 1 :=
    Nat.exists_eq_succ_of_ne_zero (by simp [Query.maxSteps])
  have visited (e : String × Entry) :
      Query.visit fs ⟨[component], false, false⟩ n component [] e.1
          (Query.placeOf fs (Query.entryPath "." e.1) e.2) =
        if matchesAll component e.1.toList then [.found e.1] else [] := by
    have path : Query.entryPath "." e.1 = e.1 := rfl
    rw [Query.visit, flat, Query.advance, Query.arrive, Query.path_placeOf, path]
    rfl
  have below : Query.below fs ⟨[component], false, false⟩ (n + 1) [component]
      (Query.placeAt fs ".") = entries.flatMap fun e =>
        if matchesAll component e.1.toList then [.found e.1] else [] := by
    rw [Query.below, open']
    simp only [Query.placeAt, directory, if_true, listed, hidden, List.flatMap_nil, List.nil_append,
      visited]
  have parts (es : List (String × Entry)) :
      (es.flatMap fun e => if matchesAll component e.1.toList then [Match.found e.1] else []) =
        (es.filter fun e => matchesAll component e.1.toList).map fun e => .found e.1 := by
    induction es with
    | nil => rfl
    | cons e es ih => by_cases kept : matchesAll component e.1.toList <;> simp [kept, ih]
  rw [search, Query.ofPattern_component nonempty plain read, Except.map, Query.search, steps]
  exact congrArg Except.ok (below.trans (parts entries))

theorem tokens_anyRun : tokens "*".toList = .ok [.anyRun] := by
  simp [tokens, tokensFrom, Except.map]

theorem Query.ofPattern_anyRun : ofPattern "*" = .ok ⟨[[.anyRun]], false, false⟩ :=
  ofPattern_component (by decide) (by decide) tokens_anyRun

theorem matchesAll_anyRun (cs : List Char) : matchesAll [.anyRun] cs = true := by
  rw [matchesAll]
  induction cs with
  | nil => rfl
  | cons c cs ih => rw [anySuffix, ih, Bool.or_true]

theorem search_anyRun {fs : FileSystem} {entries : List (String × Entry)}
    (listed : fs.list "." = .ok entries) :
    search fs "*" = .ok (entries.map fun e => .found e.1) := by
  rw [search_component (by decide) (by decide) tokens_anyRun rfl rfl rfl listed]
  simp only [matchesAll_anyRun, List.filter_true]

end SheetLint.Glob
