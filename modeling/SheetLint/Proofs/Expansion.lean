import SheetLint.Proofs.FirstProblem
import SheetLint.Proofs.Tree

namespace SheetLint

namespace Glob.Match

def components (m : Match) : List Path.Component :=
  Path.components m.path

end Glob.Match

namespace Input

open Glob

variable {fs : FileSystem} {hint : Option String}

def remaining (fs : FileSystem) (yielded : List Match) : List Match :=
  yielded.filter (isKept fs)

def placeIn (ms : List Match) (path : List Path.Component) : Nat :=
  ms.findIdx fun m => decide (m.components = path)

/-! ## Firsts -/

structure Firsts (seen : List (List Path.Component)) (ms ds : List Match) : Prop where
  fresh : ∀ d ∈ ds, d.components ∉ seen
  complete : ∀ m ∈ ms, m.components ∈ seen ∨ ∃ d ∈ ds, d.components = m.components
  first : ∀ d ∈ ds, ∃ before after, ms = before ++ d :: after ∧
    ∀ b ∈ before, b.components ≠ d.components
  order : ds.Pairwise fun d e => placeIn ms d.components < placeIn ms e.components

section Firsts

variable {seen : List (List Path.Component)} {m : Match} {ms ds : List Match}

theorem placeIn_cons_self (m : Match) (ms : List Match) : placeIn (m :: ms) m.components = 0 := by
  simp [placeIn, List.findIdx_cons]

theorem placeIn_cons_of_ne {path : List Path.Component} (ne : m.components ≠ path) :
    placeIn (m :: ms) path = placeIn ms path + 1 := by
  simp [placeIn, List.findIdx_cons, ne]

theorem Firsts.onward (firsts : Firsts seen ms ds)
    (other : ∀ d ∈ ds, m.components ≠ d.components) :
    (∀ d ∈ ds, ∃ before after, m :: ms = before ++ d :: after ∧
      ∀ b ∈ before, b.components ≠ d.components) ∧
    ds.Pairwise fun d e => placeIn (m :: ms) d.components < placeIn (m :: ms) e.components := by
  constructor
  · intro d mem
    obtain ⟨before, after, rfl, earlier⟩ := firsts.first d mem
    exact ⟨m :: before, after, rfl, List.forall_mem_cons.2 ⟨other d mem, earlier⟩⟩
  · apply firsts.order.imp_of_mem
    intro d e memD memE lt
    rw [placeIn_cons_of_ne (other d memD), placeIn_cons_of_ne (other e memE)]
    exact Nat.succ_lt_succ lt

theorem Firsts.nil (seen : List (List Path.Component)) : Firsts seen [] [] :=
  ⟨List.forall_mem_nil _, List.forall_mem_nil _, List.forall_mem_nil _, .nil⟩

theorem Firsts.skip (old : m.components ∈ seen) (firsts : Firsts seen ms ds) :
    Firsts seen (m :: ms) ds := by
  have other : ∀ d ∈ ds, m.components ≠ d.components := by
    intro d mem same
    exact firsts.fresh d mem (same ▸ old)
  obtain ⟨first, order⟩ := firsts.onward other
  exact ⟨firsts.fresh, List.forall_mem_cons.2 ⟨.inl old, firsts.complete⟩, first, order⟩

theorem Firsts.cons (new : m.components ∉ seen) (firsts : Firsts (m.components :: seen) ms ds) :
    Firsts seen (m :: ms) (m :: ds) := by
  have other : ∀ d ∈ ds, m.components ≠ d.components := by
    intro d mem same
    exact firsts.fresh d mem (same ▸ List.mem_cons_self)
  obtain ⟨first, order⟩ := firsts.onward other
  refine ⟨?_, ?_, ?_, ?_⟩
  · refine List.forall_mem_cons.2 ⟨new, ?_⟩
    intro d mem old
    exact firsts.fresh d mem (.tail _ old)
  · refine List.forall_mem_cons.2 ⟨.inr ⟨m, List.mem_cons_self, rfl⟩, ?_⟩
    intro n mem
    rcases firsts.complete n mem with old | ⟨d, here, same⟩
    · rcases List.mem_cons.1 old with same | old
      · exact .inr ⟨m, List.mem_cons_self, same.symm⟩
      · exact .inl old
    · exact .inr ⟨d, .tail _ here, same⟩
  · exact List.forall_mem_cons.2 ⟨⟨[], ms, rfl, List.forall_mem_nil _⟩, first⟩
  · refine List.pairwise_cons.2 ⟨?_, order⟩
    intro d mem
    rw [placeIn_cons_self, placeIn_cons_of_ne (other d mem)]
    exact Nat.succ_pos _

theorem firsts_distinct (fs : FileSystem) (seen : List (List Path.Component)) (found : List Match) :
    Firsts seen (remaining fs found) (distinct fs.isDirectory seen found) := by
  fun_induction distinct fs.isDirectory seen found with
  | case1 seen => exact .nil seen
  | case2 seen p more leftOut ih =>
    by_cases directory : fs.isDirectory p = true
    · rw [remaining, List.filter_cons_of_neg (by simp [isKept, directory])]
      exact ih
    · rw [remaining, List.filter_cons_of_pos (by simp [isKept, directory])]
      refine .skip ?_ ih
      simpa [directory, Match.components, Match.path] using leftOut
  | case3 seen p more kept ih =>
    rw [Bool.or_eq_true, not_or, Bool.not_eq_true, List.contains_iff_mem] at kept
    rw [remaining, List.filter_cons_of_pos (by simp [isKept, kept.1])]
    exact .cons kept.2 ih
  | case4 seen p e more old ih =>
    rw [remaining, List.filter_cons_of_pos rfl]
    exact .skip (List.contains_iff_mem.1 old) ih
  | case5 seen p e more new ih =>
    rw [remaining, List.filter_cons_of_pos rfl]
    exact .cons (mt List.contains_iff_mem.2 new) ih

end Firsts

/-! ## Matches that come again -/

/-- Whether some matches have no other paths than some matches before them. -/
def Covered (fs : FileSystem) (found again : List Match) : Prop :=
  ∀ m ∈ remaining fs again, ∃ n ∈ remaining fs found, n.components = m.components

theorem distinct_append (fs : FileSystem) (seen : List (List Path.Component)) (xs ys : List Match) :
    distinct fs.isDirectory seen (xs ++ ys) = distinct fs.isDirectory seen xs ++
      distinct fs.isDirectory
        (((distinct fs.isDirectory seen xs).map Match.components).reverse ++ seen) ys := by
  fun_induction distinct fs.isDirectory seen xs with
  | case1 seen => rfl
  | case2 seen p more leftOut ih => rw [List.cons_append, distinct, if_pos leftOut, ih]
  | case3 seen p more kept ih =>
    rw [List.cons_append, distinct, if_neg kept, ih]
    simp [Match.components, Match.path]
  | case4 seen p e more old ih => rw [List.cons_append, distinct, if_pos old, ih]
  | case5 seen p e more new ih =>
    rw [List.cons_append, distinct, if_neg new, ih]
    simp [Match.components, Match.path]

theorem distinct_of_seen {seen : List (List Path.Component)} {again : List Match}
    (old : ∀ m ∈ remaining fs again, m.components ∈ seen) :
    distinct fs.isDirectory seen again = [] := by
  apply List.eq_nil_iff_forall_not_mem.2
  intro d mem
  have firsts := firsts_distinct fs seen again
  obtain ⟨before, after, split, -⟩ := firsts.first d mem
  apply firsts.fresh d mem (old d _)
  rw [split]
  exact List.mem_append_right _ List.mem_cons_self

theorem distinct_again {xs ys : List Match} (covered : Covered fs xs ys) (zs : List Match) :
    distinct fs.isDirectory [] (xs ++ ys ++ zs) = distinct fs.isDirectory [] (xs ++ zs) := by
  have old : distinct fs.isDirectory
      (((distinct fs.isDirectory [] xs).map Match.components).reverse ++ []) ys = [] := by
    apply distinct_of_seen
    intro m mem
    obtain ⟨n, among, same⟩ := covered m mem
    rcases (firsts_distinct fs [] xs).complete n among with seen | ⟨d, here, same'⟩
    · cases seen
    · rw [List.append_nil, List.mem_reverse, ← same, ← same']
      exact List.mem_map_of_mem here
  rw [distinct_append, distinct_append, old, List.append_nil, ← distinct_append]

/-! ## Inputs -/

structure OfMatch (fs : FileSystem) (hint : Option String) (m : Match) (i : Input) : Prop where
  source : i.source = m.path
  path : i.path = some m.path
  read : ∀ p, m = .found p → i.text = (fs.read p).mapError fun e => .unreadable e.message
  unread : ∀ p e, m = .unreadable p e → i.text = .error (.unreadable e.message)
  hinted : ∀ name, hint = some name → Dialect.Named name i.dialect
  inferred : hint = none → Dialect.OfPath m.path i.dialect

/-- Whether inputs are those of what patterns have yielded: each path has one input, which is made from
the first match with the path and comes in the order of these. -/
structure OrderedUnion (fs : FileSystem) (hint : Option String) (yielded : List Match)
    (inputs : List Input) : Prop where
  distinct : inputs.Pairwise fun i j => Path.components i.source ≠ Path.components j.source
  complete : ∀ m ∈ remaining fs yielded, ∃ i ∈ inputs, Path.components i.source = m.components
  first : ∀ i ∈ inputs, ∃ before m after, remaining fs yielded = before ++ m :: after ∧
    (∀ b ∈ before, b.components ≠ m.components) ∧ OfMatch fs hint m i
  order : inputs.Pairwise fun i j => placeIn (remaining fs yielded) (Path.components i.source) <
    placeIn (remaining fs yielded) (Path.components j.source)

def gather (fs : FileSystem) (hint : Option String) (yielded : List Match) :
    Except RequestError (List Input) :=
  (distinct fs.isDirectory [] yielded).mapM (ofMatch fs hint)

theorem path_readMatch (fs : FileSystem) (m : Match) : (readMatch fs m).1 = m.path := by
  cases m <;> rfl

theorem ofMatch_of_dialectOf {m : Match} {d : Dialect} (asked : dialectOf hint (some m.path) = .ok d) :
    ofMatch fs hint m = .ok ⟨m.path, some m.path, d, (readMatch fs m).2⟩ := by
  rw [ofMatch]
  simp only [path_readMatch, asked]
  rfl

theorem exists_ofMatch (known : ∀ name, hint = some name → ∃ d, Dialect.Named name d)
    (m : Match) : ∃ i, ofMatch fs hint m = .ok i ∧ OfMatch fs hint m i := by
  have read (d : Dialect) : ∀ p, m = .found p →
      (⟨m.path, some m.path, d, (readMatch fs m).2⟩ : Input).text =
        (fs.read p).mapError fun e => .unreadable e.message := by
    rintro p rfl
    rfl
  have unread (d : Dialect) : ∀ p e, m = .unreadable p e →
      (⟨m.path, some m.path, d, (readMatch fs m).2⟩ : Input).text =
        .error (.unreadable e.message) := by
    rintro p e rfl
    rfl
  cases hint with
  | none =>
    refine ⟨_, ofMatch_of_dialectOf rfl, rfl, rfl, read _, unread _, ?_,
      fun _ => Dialect.ofPath_ofExtension? m.path⟩
    rintro _ ⟨⟩
  | some name =>
    obtain ⟨d, named⟩ := known name rfl
    have asked : dialectOf (some name) (some m.path) = .ok d := by
      simp only [dialectOf, Dialect.ofName?_eq_some_iff.2 named]
    refine ⟨_, ofMatch_of_dialectOf asked, rfl, rfl, read d, unread d, ?_, ?_⟩
    · rintro _ ⟨⟩
      exact named
    · rintro ⟨⟩

theorem exists_gather (known : ∀ name, hint = some name → ∃ d, Dialect.Named name d)
    (ms : List Match) : ∃ inputs, ms.mapM (ofMatch fs hint) = .ok inputs ∧
      List.Forall₂ (OfMatch fs hint) ms inputs := by
  induction ms with
  | nil => exact ⟨[], rfl, .nil⟩
  | cons m ms ih =>
    obtain ⟨i, here, made⟩ := @exists_ofMatch fs hint known m
    obtain ⟨inputs, later, all⟩ := ih
    refine ⟨i :: inputs, ?_, .cons made all⟩
    rw [List.mapM_cons, here, later]
    rfl

theorem union_of_firsts {yielded ds : List Match} {inputs : List Input}
    (firsts : Firsts [] (remaining fs yielded) ds) (made : List.Forall₂ (OfMatch fs hint) ds inputs) :
    OrderedUnion fs hint yielded inputs := by
  have components {m : Match} {i : Input} (h : OfMatch fs hint m i) :
      Path.components i.source = m.components := by
    rw [h.source, Match.components]
  have order : inputs.Pairwise fun i j =>
      placeIn (remaining fs yielded) (Path.components i.source) <
        placeIn (remaining fs yielded) (Path.components j.source) := by
    apply pairwise_of_forall₂ made firsts.order
    intro d e i j lt here later
    rwa [components here, components later]
  refine ⟨?_, ?_, ?_, order⟩
  · apply order.imp
    intro i j lt same
    rw [same] at lt
    exact lt_irrefl _ lt
  · intro m mem
    rcases firsts.complete m mem with seen | ⟨d, here, same⟩
    · cases seen
    · obtain ⟨i, among, of⟩ := exists_of_forall₂ made.flip here
      exact ⟨i, among, (components of).trans same⟩
  · intro i mem
    obtain ⟨d, among, of⟩ := exists_of_forall₂ made mem
    obtain ⟨before, after, split, earlier⟩ := firsts.first d among
    exact ⟨before, d, after, split, earlier, of⟩

theorem gather_of_unknown {name : String} (unknown : ∀ d, ¬Dialect.Named name d)
    (yielded : List Match) : gather fs (some name) yielded =
      if remaining fs yielded = [] then .ok [] else .error (.unknownDialect name) := by
  have firsts := firsts_distinct fs [] yielded
  rw [gather]
  split_ifs with empty
  · rw [distinct_of_seen (by simp [empty])]
    rfl
  · obtain ⟨m, ms, kept⟩ := List.exists_cons_of_ne_nil empty
    rcases firsts.complete m (kept ▸ List.mem_cons_self) with seen | ⟨d, here, -⟩
    · cases seen
    · obtain ⟨d, ds, split⟩ := List.exists_cons_of_ne_nil (List.ne_nil_of_mem here)
      have refused : ofMatch fs (some name) d = .error (.unknownDialect name) := by
        simp only [ofMatch, dialectOf, Dialect.ofName?_eq_none_iff.2 unknown]
        rfl
      rw [split, List.mapM_cons, refused]
      rfl

/-! ## Patterns -/

section Patterns

open Request (twoFiles lookup_twoFiles read_twoFiles search_twoFiles distinct_twoFiles)

variable {patterns : List String}

theorem expand_files (fs : FileSystem) (hint : Option String) (patterns : List String) :
    expand fs (.files patterns) hint = (matchesOf fs patterns).bind (gather fs hint) := by
  rw [expand]
  cases matchesOf fs patterns <;> rfl

theorem matchesOf_append (fs : FileSystem) (before after : List String) :
    matchesOf fs (before ++ after) =
      (matchesOf fs before).bind fun found => (matchesOf fs after).map (found ++ ·) := by
  induction before with
  | nil =>
    rw [List.nil_append]
    cases matched : matchesOf fs after <;> rfl
  | cons pattern before ih =>
    rw [List.cons_append, matchesOf, matchesOf, ih]
    cases Glob.search fs pattern with
    | error e => rfl
    | ok first =>
      cases matchesOf fs before with
      | error e => rfl
      | ok found => cases matchesOf fs after <;> simp [Except.map, Except.bind]

theorem matchesOf_of_forall₂ {yielded : List (List Match)}
    (searched : List.Forall₂ (fun pattern ms => Glob.search fs pattern = .ok ms) patterns yielded) :
    matchesOf fs patterns = .ok yielded.flatten := by
  induction searched with
  | nil => rfl
  | cons here _ ih =>
    rw [matchesOf, here, ih]
    rfl

theorem exists_search {found : List Match} (matched : matchesOf fs patterns = .ok found)
    {pattern : String} (given : pattern ∈ patterns) : ∃ ms, Glob.search fs pattern = .ok ms := by
  have fine : ∀ e, ¬FirstWrong NoPattern patterns e := by
    intro e first
    have failed := (matchesOf_eq_error_iff fs).2 first
    rw [matched] at failed
    cases failed
  cases searched : Glob.search fs pattern with
  | ok ms => exact ⟨ms, rfl⟩
  | error e =>
    have bad := map_eq_error_iff.1 searched
    exact absurd (.invalid bad) (forall_not_firstWrong_iff.1 fine pattern given _)

theorem expand_again {before again : List String} {found found' : List Match}
    (matched : matchesOf fs before = .ok found) (matched' : matchesOf fs again = .ok found')
    (covered : Covered fs found found') (after : List String) :
    expand fs (.files (before ++ again ++ after)) hint =
      expand fs (.files (before ++ after)) hint := by
  rw [expand_files, expand_files, matchesOf_append, matchesOf_append, matchesOf_append, matched,
    matched']
  cases matchesOf fs after with
  | error e => rfl
  | ok later => exact congrArg (List.mapM (ofMatch fs hint)) (distinct_again covered later)

theorem expand_repeated {before : List String} {pattern : String} (given : pattern ∈ before)
    (after : List String) :
    expand fs (.files (before ++ pattern :: after)) hint =
      expand fs (.files (before ++ after)) hint := by
  cases matched : matchesOf fs before with
  | error e => rw [expand_files, expand_files, matchesOf_append, matchesOf_append, matched]; rfl
  | ok found =>
    obtain ⟨ms, searched⟩ := exists_search matched given
    have matched' : matchesOf fs [pattern] = .ok ms := by
      rw [matchesOf, searched]
      simp [matchesOf, Except.map]
    have covered : Covered fs found ms := by
      intro m mem
      obtain ⟨among, kept⟩ := List.mem_filter.1 mem
      have earlier := (mem_matchesOf matched).2 ⟨pattern, given, ms, searched, among⟩
      exact ⟨m, List.mem_filter.2 ⟨earlier, kept⟩, rfl⟩
    have same : expand fs (.files (before ++ [pattern] ++ after)) hint =
        expand fs (.files (before ++ after)) hint := expand_again matched matched' covered after
    rwa [List.append_assoc] at same

/-- Whatever patterns have yielded, the inputs are the union of it in order, unless a hint is given that
names no dialect and there is something to read. The first pattern that is none makes expansion fail, and
otherwise it takes in what the patterns yield one after the other. Patterns that match nothing new, and
a pattern that is repeated, change nothing. -/
theorem expand_union (fs : FileSystem) (hint : Option String) :
    (∀ yielded, (∀ name, hint = some name → ∃ d, Dialect.Named name d) →
      ∃ inputs, gather fs hint yielded = .ok inputs ∧ OrderedUnion fs hint yielded inputs) ∧
    (∀ yielded name, hint = some name → (∀ d, ¬Dialect.Named name d) → gather fs hint yielded =
      if remaining fs yielded = [] then .ok [] else .error (.unknownDialect name)) ∧
    (∀ xs ys zs, Covered fs xs ys → gather fs hint (xs ++ ys ++ zs) = gather fs hint (xs ++ zs)) ∧
    (∀ patterns e, FirstWrong NoPattern patterns e → expand fs (.files patterns) hint = .error e) ∧
    (∀ patterns yielded,
      List.Forall₂ (fun pattern ms => Glob.search fs pattern = .ok ms) patterns yielded →
      expand fs (.files patterns) hint = gather fs hint yielded.flatten) ∧
    (∀ before again after found found', matchesOf fs before = .ok found →
      matchesOf fs again = .ok found' → Covered fs found found' →
      expand fs (.files (before ++ again ++ after)) hint =
        expand fs (.files (before ++ after)) hint) ∧
    ∀ before pattern after, pattern ∈ before →
      expand fs (.files (before ++ pattern :: after)) hint =
        expand fs (.files (before ++ after)) hint := by
  refine ⟨?_, ?_, ?_, ?_, ?_, ?_, ?_⟩
  · intro yielded known
    obtain ⟨inputs, gathered, made⟩ := @exists_gather fs hint known
      (distinct fs.isDirectory [] yielded)
    exact ⟨inputs, gathered, union_of_firsts (firsts_distinct fs [] yielded) made⟩
  · rintro yielded name rfl unknown
    exact gather_of_unknown unknown yielded
  · intro xs ys zs covered
    rw [gather, distinct_again covered, gather]
  · intro patterns e first
    rw [expand_files, (matchesOf_eq_error_iff fs).2 first]
    rfl
  · intro patterns yielded searched
    rw [expand_files, matchesOf_of_forall₂ searched]
    rfl
  · intro before again after found found' matched matched' covered
    exact expand_again matched matched' covered after
  · intro before pattern after given
    exact expand_repeated given after

theorem expand_union_two_files :
    List.Forall₂ (fun pattern ms => Glob.search twoFiles pattern = .ok ms) ["*", "a*"]
      [[.found "a.SCSS", .found "b.less", .found "c"], [.found "a.SCSS"]] ∧
    (∃ inputs, expand twoFiles (.files ["*", "a*"]) none = .ok inputs ∧
      OrderedUnion twoFiles none
        [.found "a.SCSS", .found "b.less", .found "c", .found "a.SCSS"] inputs ∧
      inputs = [⟨"a.SCSS", some "a.SCSS", .scss, .ok ""⟩, ⟨"b.less", some "b.less", .less,
        .error (.unreadable "stream did not contain valid UTF-8")⟩]) ∧
    (∃ inputs, expand twoFiles (.files ["a*"]) (some " LESS ") = .ok inputs ∧
      OrderedUnion twoFiles (some " LESS ") [.found "a.SCSS"] inputs ∧
      inputs = [⟨"a.SCSS", some "a.SCSS", .less, .ok ""⟩]) ∧
    expand twoFiles (.files ["*", "a*", "*"]) none = expand twoFiles (.files ["*", "a*"]) none ∧
    expand twoFiles (.files ["*", "a*", "b*"]) none = expand twoFiles (.files ["*", "a*"]) none ∧
    expand twoFiles (.files ["*", "***"]) none =
      .error (.invalidGlob "***" ⟨.wildcards, 2⟩) := by
  obtain ⟨all, startsA, startsB⟩ := search_twoFiles
  have searched : List.Forall₂ (fun pattern ms => Glob.search twoFiles pattern = .ok ms) ["*", "a*"]
      [[.found "a.SCSS", .found "b.less", .found "c"], [.found "a.SCSS"]] :=
    .cons all (.cons startsA .nil)
  have matched : matchesOf twoFiles ["*", "a*"] =
      .ok [.found "a.SCSS", .found "b.less", .found "c", .found "a.SCSS"] :=
    matchesOf_of_forall₂ searched
  have matched' : matchesOf twoFiles ["b*"] = .ok [.found "b.less"] :=
    matchesOf_of_forall₂ (.cons startsB .nil)
  have covered : Covered twoFiles [.found "a.SCSS", .found "b.less", .found "c", .found "a.SCSS"]
      [.found "b.less"] := by
    intro m mem
    obtain ⟨mem, kept⟩ := List.mem_filter.1 mem
    cases List.mem_singleton.1 mem
    exact ⟨.found "b.less", List.mem_filter.2 ⟨.tail _ List.mem_cons_self, kept⟩, rfl⟩
  have first : FirstWrong NoPattern ["*", "***"] (.invalidGlob "***" ⟨.wildcards, 2⟩) := by
    have stars : Glob.Query.ofPattern "***" = .error ⟨.wildcards, 2⟩ := by
      simp [Glob.Query.ofPattern, Glob.tokens, Glob.tokensFrom]
    refine ⟨["*"], "***", [], rfl, .invalid stars, ?_⟩
    rw [List.forall_mem_singleton]
    rintro e ⟨bad⟩
    rw [Glob.Query.ofPattern_anyRun] at bad
    cases bad
  obtain ⟨every, -, -, invalid, whole, again, repeated⟩ := expand_union twoFiles none
  have known : ∀ name, none = some name → ∃ d, Dialect.Named name d := by
    rintro _ ⟨⟩
  obtain ⟨inputs, gathered, union⟩ :=
    every [.found "a.SCSS", .found "b.less", .found "c", .found "a.SCSS"] known
  obtain ⟨hinted, -, -, -, whole', -⟩ := expand_union twoFiles (some " LESS ")
  have known' : ∀ name, some " LESS " = some name → ∃ d, Dialect.Named name d := by
    rintro _ ⟨⟩
    exact ⟨.less, .less rfl⟩
  obtain ⟨inputs', gathered', union'⟩ := hinted [.found "a.SCSS"] known'
  refine ⟨searched, ⟨inputs, (whole _ _ searched).trans gathered, union, ?_⟩,
    ⟨inputs', (whole' ["a*"] [[.found "a.SCSS"]] (.cons startsA .nil)).trans gathered', union', ?_⟩,
    ?_, ?_, invalid _ _ first⟩
  · have ofA : ofMatch twoFiles none (.found "a.SCSS") =
        .ok ⟨"a.SCSS", some "a.SCSS", .scss, .ok ""⟩ := by
      rw [ofMatch, readMatch, read_twoFiles.1]
      rfl
    have ofB : ofMatch twoFiles none (.found "b.less") = .ok ⟨"b.less", some "b.less", .less,
        .error (.unreadable "stream did not contain valid UTF-8")⟩ := by
      rw [ofMatch, readMatch, read_twoFiles.2]
      rfl
    rw [gather, distinct_twoFiles, List.mapM_cons, List.mapM_cons, ofA, ofB] at gathered
    cases gathered
    rfl
  · have kept : distinct twoFiles.isDirectory [] [.found "a.SCSS"] = [.found "a.SCSS"] := by
      simp only [distinct, FileSystem.isDirectory, lookup_twoFiles.1]
      rfl
    have ofA : ofMatch twoFiles (some " LESS ") (.found "a.SCSS") =
        .ok ⟨"a.SCSS", some "a.SCSS", .less, .ok ""⟩ := by
      rw [ofMatch, readMatch, read_twoFiles.1]
      rfl
    rw [gather, kept, List.mapM_cons, ofA] at gathered'
    cases gathered'
    rfl
  · exact repeated ["*", "a*"] "*" [] (by decide)
  · exact again ["*", "a*"] ["b*"] [] _ _ matched matched' covered

end Patterns

/-! ## A text under the name of a file -/

section AsFile

variable {patterns : List String} {found : List Match} {path text : String}

theorem distinct_of_only (file : fs.isDirectory path = false) (nonempty : found ≠ [])
    (only : ∀ m ∈ found, m = .found path) : distinct fs.isDirectory [] found = [.found path] := by
  obtain ⟨m, again, rfl⟩ := List.exists_cons_of_ne_nil nonempty
  rw [List.forall_mem_cons] at only
  obtain ⟨rfl, only⟩ := only
  have old : ∀ m ∈ remaining fs again, m.components ∈ [Path.components path] := by
    intro m mem
    rw [only m (List.mem_of_mem_filter mem)]
    exact List.mem_singleton_self _
  rw [distinct, if_neg (by simp [file]), distinct_of_seen old]

theorem expand_code_as_file (matched : matchesOf fs patterns = .ok found) (nonempty : found ≠ [])
    (only : ∀ m ∈ found, m = .found path) (file : fs.isDirectory path = false)
    (read : fs.read path = .ok text) (fs' : FileSystem) (hint : Option String) :
    expand fs' (.code text (some path)) hint = expand fs (.files patterns) hint := by
  have single : gather fs hint found = (ofMatch fs hint (.found path)).map ([·]) := by
    rw [gather, distinct_of_only file nonempty only, List.mapM_cons]
    cases ofMatch fs hint (.found path) <;> rfl
  rw [expand_files, matched]
  refine Eq.trans ?_ single.symm
  rw [expand, ofMatch]
  simp only [readMatch, read]
  cases dialectOf hint (some path) <;> rfl

end AsFile

end Input

namespace Request

theorem run_of_expand_eq {fs fs' : FileSystem} {r r' : Request}
    (plan : r.plan = r'.plan) (same : Input.expand fs r.source (r.dialect.map Dialect.name) =
      Input.expand fs' r'.source (r'.dialect.map Dialect.name))
    (nonempty : Input.expand fs r.source (r.dialect.map Dialect.name) ≠ .ok []) :
    r.run fs = r'.run fs' := by
  rw [run, run, plan, inputs, inputs, ← same]
  cases expanded : Input.expand fs r.source (r.dialect.map Dialect.name) with
  | error e => rfl
  | ok is =>
    cases is with
    | nil => exact absurd expanded nonempty
    | cons i is => rfl

end Request

/-- A call on a text under the name of a file comes to what a call on patterns comes to that match this
file only, if the text is in the file. -/
theorem lint_code_as_file {registry : Registry} {fs fs' : FileSystem} {o : Options}
    {patterns : List String} {found : List Glob.Match} {path text : String} {allow : Bool}
    (matched : Input.matchesOf fs patterns = .ok found) (nonempty : found ≠ [])
    (only : ∀ m ∈ found, m = .found path) (file : fs.isDirectory path = false)
    (read : fs.read path = .ok text) :
    lint registry fs' { o with code := some text, codeFileName := some path, files := [] } =
      lint registry fs { o with code := none, files := patterns, allowEmptyInput := allow } := by
  have asked : patterns ≠ [] := by
    rintro rfl
    cases matched
    exact nonempty rfl
  have source : Request.sourceOf { o with code := none, files := patterns, allowEmptyInput := allow } =
      .ok (.files patterns) := by
    obtain ⟨pattern, more, rfl⟩ := List.exists_cons_of_ne_nil asked
    rfl
  have ran (dialect : Option Dialect) (plan : List PlannedRule) :
      Request.run fs' ⟨.code text (some path), dialect, plan, o.allowEmptyInput⟩ =
        Request.run fs ⟨.files patterns, dialect, plan, allow⟩ := by
    refine Request.run_of_expand_eq rfl
      (Input.expand_code_as_file matched nonempty only file read fs' _) ?_
    rw [Input.expand]
    cases Input.dialectOf (dialect.map Dialect.name) (some path) <;> simp [Except.map]
  rw [lint, lint, Request.ofOptions, Request.ofOptions, source]
  simp only [Request.sourceOf]
  -- The two calls ask for the same dialect and the same plan, so the same may be wrong with them.
  have dialect : Request.dialectOf { o with code := none, files := patterns, allowEmptyInput := allow } =
      Request.dialectOf { o with code := some text, codeFileName := some path, files := [] } := rfl
  rw [dialect]
  cases Request.dialectOf { o with code := some text, codeFileName := some path, files := [] } with
  | error e => rfl
  | ok dialect =>
    cases Plan.ofConfig registry o.config with
    | error e => rfl
    | ok plan => simp only [Except.map, ran]

def openFile : FileSystem :=
  ⟨.directory none [("x", .file (.ok "a\x7b"))], []⟩

theorem lint_code_as_file_open :
    Input.matchesOf openFile ["*"] = .ok [.found "x"] ∧ openFile.isDirectory "x" = false ∧
    openFile.read "x" = .ok "a\x7b" ∧
    lint .builtIn .empty
        { Options.ofConfig .empty with
          code := some "a\x7b", codeFileName := some "x", dialect := some "SCSS" } =
      lint .builtIn openFile
        { Options.ofConfig .empty with files := ["*"], dialect := some "SCSS" } := by
  have listed : openFile.list "." = .ok [("x", .file (.ok "a\x7b"))] := by
    rw [FileSystem.list, FileSystem.lookup_current rfl]
    simp
  have matched : Input.matchesOf openFile ["*"] = .ok [.found "x"] := by
    rw [Input.matchesOf, Glob.search_anyRun listed]
    rfl
  have leads : openFile.lookup "x" = .ok (.file (.ok "a\x7b")) :=
    FileSystem.lookup_name rfl (by decide) rfl (by rintro _ ⟨⟩)
  have file : openFile.isDirectory "x" = false := by
    rw [FileSystem.isDirectory, leads]
    rfl
  have read : openFile.read "x" = .ok "a\x7b" := by
    rw [FileSystem.read, leads]
  exact ⟨matched, file, read, lint_code_as_file
    (o := { Options.ofConfig .empty with dialect := some "SCSS" }) matched (List.cons_ne_nil _ _)
    (List.forall_mem_singleton.2 rfl) file read⟩

end SheetLint
