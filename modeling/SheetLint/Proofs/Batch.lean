import Mathlib.Data.List.Forall2
import SheetLint.Linter
import SheetLint.Proofs.Extension
import SheetLint.Proofs.Glob.Search

namespace SheetLint

namespace Glob.Match

def path : Match → String
  | found path => path
  | unreadable path _ => path

end Glob.Match

namespace Input

open Glob

variable {fs : FileSystem}

def isKept (fs : FileSystem) : Match → Bool
  | .found path => !fs.isDirectory path
  | .unreadable _ _ => true

def samePath (p q : String) : Bool :=
  Path.components p == Path.components q

def pathsOf (fs : FileSystem) (found : List Match) : List String :=
  ((found.filter (isKept fs)).map Match.path).eraseDupsBy samePath

/-! ## From matches to inputs -/

def pathsAfter (seen : List (List Path.Component)) (paths : List String) : List String :=
  (paths.filter fun p => !seen.contains (Path.components p)).eraseDupsBy samePath

section PathsAfter

variable {seen : List (List Path.Component)} {p : String} {paths : List String}

theorem pathsAfter_nil (paths : List String) : pathsAfter [] paths = paths.eraseDupsBy samePath := by
  rw [pathsAfter, List.filter_eq_self.2]
  intro p _
  rfl

theorem pathsAfter_old (old : seen.contains (Path.components p) = true) :
    pathsAfter seen (p :: paths) = pathsAfter seen paths := by
  rw [pathsAfter, pathsAfter, List.filter_cons_of_neg]
  rw [old]
  decide

theorem pathsAfter_new (new : seen.contains (Path.components p) = false) :
    pathsAfter seen (p :: paths) = p :: pathsAfter (Path.components p :: seen) paths := by
  rw [pathsAfter, List.filter_cons_of_pos (by rw [new]; rfl), List.eraseDupsBy_cons,
    List.filter_filter, pathsAfter]
  congr 2
  apply List.filter_congr
  intro q _
  simp [samePath]

end PathsAfter

theorem map_path_distinct (seen : List (List Path.Component)) (found : List Match) :
    (distinct fs.isDirectory seen found).map Match.path =
      pathsAfter seen ((found.filter (isKept fs)).map Match.path) := by
  fun_induction distinct fs.isDirectory seen found with
  | case1 seen => rfl
  | case2 seen p more leftOut ih =>
    by_cases directory : fs.isDirectory p = true
    · rw [List.filter_cons_of_neg (by simp [isKept, directory])]
      exact ih
    · have old : seen.contains (Path.components p) = true := by simpa [directory] using leftOut
      rw [List.filter_cons_of_pos (by simp [isKept, directory])]
      exact ih.trans (pathsAfter_old old).symm
  | case3 seen p more kept ih =>
    rw [Bool.or_eq_true, not_or, Bool.not_eq_true, Bool.not_eq_true] at kept
    rw [List.filter_cons_of_pos (by simp [isKept, kept.1]), List.map_cons, ih]
    exact (pathsAfter_new kept.2).symm
  | case4 seen p e more old ih =>
    rw [List.filter_cons_of_pos rfl]
    exact ih.trans (pathsAfter_old old).symm
  | case5 seen p e more fresh ih =>
    rw [List.filter_cons_of_pos rfl, List.map_cons, ih]
    exact (pathsAfter_new (eq_false_of_ne_true fresh)).symm

theorem paths_distinct (fs : FileSystem) (found : List Match) :
    (distinct fs.isDirectory [] found).map Match.path = pathsOf fs found := by
  rw [map_path_distinct, pathsAfter_nil, pathsOf]

theorem kept_of_mem_distinct {seen : List (List Path.Component)} {found : List Match} {m : Match}
    (mem : m ∈ distinct fs.isDirectory seen found) : m ∈ found ∧ isKept fs m = true := by
  fun_induction distinct fs.isDirectory seen found with
  | case1 => cases mem
  | case2 seen p more leftOut ih | case4 seen p e more old ih =>
    exact ⟨.tail _ (ih mem).1, (ih mem).2⟩
  | case3 seen p more kept ih =>
    rcases List.mem_cons.1 mem with rfl | mem
    · rw [Bool.or_eq_true, not_or, Bool.not_eq_true] at kept
      exact ⟨List.mem_cons_self, by simp [isKept, kept.1]⟩
    · exact ⟨.tail _ (ih mem).1, (ih mem).2⟩
  | case5 seen p e more fresh ih =>
    rcases List.mem_cons.1 mem with rfl | mem
    · exact ⟨List.mem_cons_self, rfl⟩
    · exact ⟨.tail _ (ih mem).1, (ih mem).2⟩

def dialectIn (hint : Option Dialect) (path : String) : Dialect :=
  hint.getD (((Path.extension? path).bind Dialect.ofExtension?).getD .css)

def inputOf (fs : FileSystem) (hint : Option Dialect) (m : Match) : Input :=
  ⟨m.path, some m.path, dialectIn hint m.path, (readMatch fs m).2⟩

theorem ofPath_dialectIn (path : String) : Dialect.OfPath path (dialectIn none path) :=
  Dialect.ofPath_ofExtension? path

theorem dialectOf_name (hint : Option Dialect) (path : String) :
    dialectOf (hint.map Dialect.name) (some path) = .ok (dialectIn hint path) := by
  cases hint with
  | none => rfl
  | some d =>
    simp only [Option.map_some, dialectOf, Dialect.ofName?_name]
    rfl

theorem ofMatch_eq (fs : FileSystem) (hint : Option Dialect) (m : Match) :
    ofMatch fs (hint.map Dialect.name) m = .ok (inputOf fs hint m) := by
  have path : (readMatch fs m).1 = m.path := by cases m <;> rfl
  rw [ofMatch]
  simp only [path, dialectOf_name]
  rfl

theorem expand_eq {patterns : List String} {found : List Match} (hint : Option Dialect)
    (matched : matchesOf fs patterns = .ok found) :
    expand fs (.files patterns) (hint.map Dialect.name) =
      .ok ((distinct fs.isDirectory [] found).map (inputOf fs hint)) := by
  have each : ofMatch fs (hint.map Dialect.name) = fun m => pure (inputOf fs hint m) :=
    funext (ofMatch_eq fs hint)
  simp only [expand, matched, each]
  exact List.mapM_pure

/-! ## What an input depends on -/

theorem holds_matchesOf (well : fs.root.WellNamed) {patterns : List String} {found : List Match}
    (matched : matchesOf fs patterns = .ok found) : ∀ m ∈ found, m.Holds fs := by
  induction patterns generalizing found with
  | nil =>
    cases matched
    exact List.forall_mem_nil _
  | cons pattern more ih =>
    rw [matchesOf] at matched
    split at matched
    · cases matched
    next first searched =>
      obtain ⟨others, later, rfl⟩ := map_eq_ok_iff.1 matched
      exact List.forall_mem_append.2 ⟨holds_search well searched, ih later⟩

theorem eq_of_path {m n : Match} (holds : m.Holds fs) (kept : isKept fs m = true)
    (holds' : n.Holds fs) (kept' : isKept fs n = true) (path : m.path = n.path) : m = n := by
  cases m with
  | found p =>
    cases n with
    | found q => exact congrArg Match.found path
    | unreadable q e =>
      obtain rfl : p = q := path
      simp [isKept, holds'.1] at kept
  | unreadable p e =>
    cases n with
    | found q =>
      obtain rfl : p = q := path
      simp [isKept, holds.1] at kept'
    | unreadable q e' =>
      obtain rfl : p = q := path
      cases holds.2.symm.trans holds'.2
      rfl

section Rewrite

variable {names : List String} {old contents : Except IoError String}

theorem matchesOf_rewrite (file : fs.root.descend? names = some (.file old))
    (patterns : List String) : matchesOf (fs.rewrite names contents) patterns = matchesOf fs patterns := by
  have same (pattern : String) : search (fs.rewrite names contents) pattern = search fs pattern := by
    rw [← search_emptied, FileSystem.emptied_rewrite file, search_emptied]
  induction patterns with
  | nil => rfl
  | cons pattern more ih => rw [matchesOf, matchesOf, same, ih]

theorem distinct_rewrite (file : fs.root.descend? names = some (.file old)) (found : List Match) :
    distinct (fs.rewrite names contents).isDirectory [] found = distinct fs.isDirectory [] found := by
  rw [funext (FileSystem.isDirectory_rewrite file)]

theorem inputOf_rewrite (file : fs.root.descend? names = some (.file old)) {hint : Option Dialect}
    {m : Match} (elsewhere : fs.resolve true m.path ≠ .ok names) :
    inputOf (fs.rewrite names contents) hint m = inputOf fs hint m := by
  cases m with
  | unreadable p e => rfl
  | found p =>
    have same : (fs.rewrite names contents).read p = fs.read p :=
      FileSystem.read_rewrite_of_ne file elsewhere
    simp only [inputOf, readMatch, same]

end Rewrite

end Input

/-! ## Results -/

namespace Check

theorem source_checkInput (plan : List PlannedRule) (i : Input) :
    (checkInput plan i).source = i.source := by
  unfold checkInput checkText
  split
  · rfl
  · split <;> rfl

theorem dialect_checkInput (plan : List PlannedRule) (i : Input) :
    (checkInput plan i).dialect = i.dialect := by
  unfold checkInput checkText
  split
  · rfl
  · split <;> rfl

theorem checkInput_ends (plan : List PlannedRule) (i : Input) :
    (checkInput plan i).fault.isSome = true ∧ (checkInput plan i).violations = [] ∧
        (checkInput plan i).artifact = none ∨
      (checkInput plan i).fault = none ∧ ∃ text sheet, i.text = .ok text ∧
        i.dialect.parse text = .ok sheet ∧
        (checkInput plan i).artifact = some ⟨i.dialect, sheet.nodeCount⟩ := by
  unfold checkInput checkText
  split
  · exact .inl ⟨rfl, rfl, rfl⟩
  next text read =>
    split
    · exact .inl ⟨rfl, rfl, rfl⟩
    next sheet parsed => exact .inr ⟨rfl, text, sheet, read, parsed, rfl⟩

end Check

theorem Report.results_ofResults (results : List InputResult) :
    (Report.ofResults results).results = results :=
  rfl

namespace Request

open Input

variable {fs : FileSystem} {r : Request} {patterns : List String} {found : List Glob.Match}

def resultOf (fs : FileSystem) (r : Request) (m : Glob.Match) : InputResult :=
  Check.checkInput r.plan (inputOf fs r.dialect m)

theorem source_resultOf (fs : FileSystem) (r : Request) (m : Glob.Match) :
    (resultOf fs r m).source = m.path :=
  Check.source_checkInput ..

theorem dialect_resultOf (fs : FileSystem) (r : Request) (m : Glob.Match) :
    (resultOf fs r m).dialect = dialectIn r.dialect m.path :=
  Check.dialect_checkInput ..

theorem run_eq (source : r.source = .files patterns) (matched : matchesOf fs patterns = .ok found)
    (enough : pathsOf fs found ≠ [] ∨ r.allowEmptyInput = true) :
    r.run fs = .ok (.ofResults ((distinct fs.isDirectory [] found).map (resultOf fs r))) := by
  have expanded := expand_eq r.dialect matched
  rw [← paths_distinct] at enough
  rw [run, inputs, source, expanded]
  cases inputs : (distinct fs.isDirectory [] found) with
  | nil =>
    rw [inputs] at enough
    have allowed : r.allowEmptyInput = true := enough.resolve_left fun nonempty => nonempty rfl
    simp only [List.map_nil, allowed, if_true]
    rfl
  | cons m ms =>
    simp only [List.map_cons, Except.map, List.map_map]
    rfl

/-- What the report on a batch of files comes to, when patterns have matched `found`. -/
structure Isolated (fs : FileSystem) (r : Request) (found : List Glob.Match) (report : Report) :
    Prop where
  sources : report.results.map (·.source) = pathsOf fs found
  /-- When a file is rewritten, each result keeps its place, its source and its dialect, and all is kept
  of a result whose path does not lead to this file. -/
  rewritten : ∀ names old contents, fs.root.descend? names = some (.file old) →
    (∀ path, fs.resolve true path = .ok names → (fs.rewrite names contents).read path = contents) ∧
    ∃ report', r.run (fs.rewrite names contents) = .ok report' ∧
      List.Forall₂ (fun e e' => e'.source = e.source ∧ e'.dialect = e.dialect ∧
        (fs.resolve true e.source ≠ .ok names → e' = e)) report.results report'.results
  alone : fs.root.WellNamed → ∀ e ∈ report.results, ∀ patterns' found',
    matchesOf fs patterns' = .ok found' → pathsOf fs found' = [e.source] →
    run fs { r with source := .files patterns' } = .ok (.ofResults [e])
  hinted : ∀ d, r.dialect = some d → ∀ e ∈ report.results, e.dialect = d
  inferred : r.dialect = none → ∀ e ∈ report.results, Dialect.OfPath e.source e.dialect
  ends : ∀ e ∈ report.results, e.fault.isSome = true ∧ e.violations = [] ∧ e.artifact = none ∨
    e.fault = none ∧ ∃ text sheet, fs.read e.source = .ok text ∧ e.dialect.parse text = .ok sheet ∧
      e.artifact = some ⟨e.dialect, sheet.nodeCount⟩

theorem ends_resultOf (fs : FileSystem) (r : Request) (m : Glob.Match) :
    (resultOf fs r m).fault.isSome = true ∧ (resultOf fs r m).violations = [] ∧
        (resultOf fs r m).artifact = none ∨
      (resultOf fs r m).fault = none ∧ ∃ text sheet, fs.read m.path = .ok text ∧
        (dialectIn r.dialect m.path).parse text = .ok sheet ∧
        (resultOf fs r m).artifact = some ⟨dialectIn r.dialect m.path, sheet.nodeCount⟩ := by
  refine (Check.checkInput_ends r.plan (inputOf fs r.dialect m)).imp id ?_
  rintro ⟨sound, text, sheet, given, parsed, artifact⟩
  refine ⟨sound, text, sheet, ?_, parsed, artifact⟩
  cases m with
  | unreadable p e => cases given
  | found p =>
    have given : (fs.read p).mapError (fun e => InputFault.unreadable e.message) = .ok text := given
    cases read : fs.read p with
    | error e =>
      rw [read] at given
      cases given
    | ok text' =>
      rw [read] at given
      cases given
      exact read

/-- A request whose patterns are well formed and match some file, or need not match any, gives a
report, and in this each file has a result that no other file has a part in. -/
theorem run_isolated (source : r.source = .files patterns)
    (matched : matchesOf fs patterns = .ok found)
    (enough : pathsOf fs found ≠ [] ∨ r.allowEmptyInput = true) :
    ∃ report, r.run fs = .ok report ∧ Isolated fs r found report := by
  refine ⟨_, run_eq source matched enough, ?_, ?_, ?_, ?_, ?_, ?_⟩
  · rw [Report.results_ofResults, List.map_map, ← paths_distinct]
    apply List.map_congr_left
    intro m _
    exact source_resultOf fs r m
  · intro names old contents file
    -- A search does not look into files, so what it matches is the same.
    have matched' : matchesOf (fs.rewrite names contents) patterns = .ok found :=
      (matchesOf_rewrite file patterns).trans matched
    have same : pathsOf (fs.rewrite names contents) found = pathsOf fs found := by
      rw [← paths_distinct, ← paths_distinct, distinct_rewrite file]
    refine ⟨fun path => FileSystem.read_rewrite file, _, run_eq source matched' (by rwa [same]), ?_⟩
    rw [Report.results_ofResults, Report.results_ofResults, distinct_rewrite file,
      List.forall₂_map_left_iff, List.forall₂_map_right_iff, List.forall₂_same]
    intro m _
    simp only [source_resultOf, dialect_resultOf, true_and]
    intro elsewhere
    rw [resultOf, resultOf, inputOf_rewrite file elsewhere]
  · intro well e mem patterns' found' matched' alone
    obtain ⟨m, among, rfl⟩ := List.mem_map.1 mem
    rw [source_resultOf, ← paths_distinct] at alone
    obtain ⟨m', single, path⟩ := List.map_eq_singleton_iff.1 alone
    have among' : m' ∈ distinct fs.isDirectory [] found' := by
      rw [single]
      exact List.mem_singleton_self m'
    have kept := kept_of_mem_distinct among
    have kept' := kept_of_mem_distinct among'
    -- The other patterns may come to the path in another way, but what is there is the same.
    obtain rfl : m' = m := eq_of_path (holds_matchesOf well matched' m' kept'.1) kept'.2
      (holds_matchesOf well matched m kept.1) kept.2 path
    have enough' : pathsOf fs found' ≠ [] := by
      rw [← paths_distinct, single]
      simp
    have result := run_eq (r := { r with source := .files patterns' }) rfl matched' (.inl enough')
    rw [single] at result
    exact result
  · intro d asked e mem
    obtain ⟨m, -, rfl⟩ := List.mem_map.1 mem
    rw [dialect_resultOf, asked]
    rfl
  · intro unasked e mem
    obtain ⟨m, -, rfl⟩ := List.mem_map.1 mem
    rw [source_resultOf, dialect_resultOf, unasked]
    exact ofPath_dialectIn m.path
  · intro e mem
    obtain ⟨m, -, rfl⟩ := List.mem_map.1 mem
    simp only [source_resultOf, dialect_resultOf]
    exact ends_resultOf fs r m

def twoFiles : FileSystem :=
  ⟨.directory none
    [("b.less", .file (.error .notText)), ("a.SCSS", .file (.ok "")), ("c", .directory none [])], []⟩

theorem wellNamed_twoFiles : twoFiles.root.WellNamed := by
  apply Entry.wellNamed_directory
  · decide
  · decide
  · simp only [List.forall_mem_cons]
    exact ⟨Entry.wellNamed_file _, Entry.wellNamed_file _,
      Entry.wellNamed_directory (List.forall_mem_nil _) .nil (List.forall_mem_nil _),
      List.forall_mem_nil _⟩

theorem lookup_twoFiles : twoFiles.lookup "a.SCSS" = .ok (.file (.ok "")) ∧
    twoFiles.lookup "b.less" = .ok (.file (.error .notText)) ∧
    twoFiles.lookup "c" = .ok (.directory none []) := by
  have entry {name : String} (isName : IsName name) {e : Entry}
      (found : twoFiles.root.child? name = some e) (plain : ∀ target, e ≠ .link target) :
      twoFiles.lookup name = .ok e :=
    FileSystem.lookup_name rfl isName found plain
  refine ⟨entry (by decide) rfl ?_, entry (by decide) rfl ?_, entry (by decide) rfl ?_⟩ <;>
  · intro target same
    cases same

theorem search_twoFiles : Glob.search twoFiles "*" =
      .ok [.found "a.SCSS", .found "b.less", .found "c"] ∧
    Glob.search twoFiles "a*" = .ok [.found "a.SCSS"] ∧
    Glob.search twoFiles "b*" = .ok [.found "b.less"] := by
  have listed : twoFiles.list "." = .ok [("a.SCSS", .file (.ok "")),
      ("b.less", .file (.error .notText)), ("c", .directory none [])] := by
    rw [FileSystem.list, FileSystem.lookup_current rfl]
    simp [List.mergeSort]
  have tokensA : Glob.tokens "a*".toList = .ok [.char 'a', .anyRun] := by
    simp [Glob.tokens, Glob.tokensFrom, Except.map]
  have tokensB : Glob.tokens "b*".toList = .ok [.char 'b', .anyRun] := by
    simp [Glob.tokens, Glob.tokensFrom, Except.map]
  exact ⟨Glob.search_anyRun listed,
    Glob.search_component (by decide) (by decide) tokensA rfl rfl rfl listed,
    Glob.search_component (by decide) (by decide) tokensB rfl rfl rfl listed⟩

theorem distinct_twoFiles : distinct twoFiles.isDirectory []
    [.found "a.SCSS", .found "b.less", .found "c", .found "a.SCSS"] =
      [.found "a.SCSS", .found "b.less"] := by
  obtain ⟨a, b, c⟩ := lookup_twoFiles
  simp only [distinct, FileSystem.isDirectory, a, b, c]
  rfl

theorem read_twoFiles : twoFiles.read "a.SCSS" = .ok "" ∧
    twoFiles.read "b.less" = .error .notText := by
  obtain ⟨a, b, -⟩ := lookup_twoFiles
  rw [FileSystem.read, FileSystem.read, a, b]
  exact ⟨rfl, rfl⟩

theorem run_isolated_again :
    Input.matchesOf twoFiles ["*", "a*"] =
      .ok [.found "a.SCSS", .found "b.less", .found "c", .found "a.SCSS"] ∧
    (pathsOf twoFiles [.found "a.SCSS", .found "b.less", .found "c", .found "a.SCSS"] ≠ [] ∨
      false = true) ∧
    twoFiles.root.WellNamed ∧
    ∃ report, run twoFiles ⟨.files ["*", "a*"], none, [], false⟩ = .ok report ∧
      Isolated twoFiles ⟨.files ["*", "a*"], none, [], false⟩
        [.found "a.SCSS", .found "b.less", .found "c", .found "a.SCSS"] report ∧
      report.results = [⟨"a.SCSS", .scss, [], none, some ⟨.scss, 0⟩⟩,
        ⟨"b.less", .less, [], some (.unreadable "stream did not contain valid UTF-8"), none⟩] := by
  have matched : Input.matchesOf twoFiles ["*", "a*"] =
      .ok [.found "a.SCSS", .found "b.less", .found "c", .found "a.SCSS"] := by
    rw [Input.matchesOf, search_twoFiles.1, Input.matchesOf, search_twoFiles.2.1]
    rfl
  have enough : pathsOf twoFiles [.found "a.SCSS", .found "b.less", .found "c", .found "a.SCSS"] ≠ [] ∨
      false = true := by
    rw [← paths_distinct, distinct_twoFiles]
    exact .inl (List.cons_ne_nil _ _)
  obtain ⟨report, done, isolated⟩ :=
    run_isolated (r := ⟨.files ["*", "a*"], none, [], false⟩) rfl matched enough
  refine ⟨matched, enough, wellNamed_twoFiles, report, done, isolated, ?_⟩
  cases done.symm.trans (run_eq rfl matched enough)
  have parsed : Dialect.scss.parse "" = .ok ⟨[]⟩ := by
    simp only [Dialect.parse, Dialect.flavor?, Brace.parse, Brace.parseWithin]
    rw [Brace.Outline.readAll]
    rfl
  have first : resultOf twoFiles ⟨.files ["*", "a*"], none, [], false⟩ (.found "a.SCSS") =
      ⟨"a.SCSS", .scss, [], none, some ⟨.scss, 0⟩⟩ := by
    have dialect : dialectIn none "a.SCSS" = .scss := by decide
    simp only [resultOf, inputOf, Glob.Match.path, dialect, readMatch, read_twoFiles, Except.mapError,
      Check.checkInput, Check.checkText, parsed, Check.violations, List.flatMap_nil,
      List.mergeSort_nil]
    rfl
  have second : resultOf twoFiles ⟨.files ["*", "a*"], none, [], false⟩ (.found "b.less") =
      ⟨"b.less", .less, [], some (.unreadable "stream did not contain valid UTF-8"), none⟩ := by
    have dialect : dialectIn none "b.less" = .less := by decide
    simp only [resultOf, inputOf, Glob.Match.path, dialect, readMatch, read_twoFiles, Except.mapError,
      Check.checkInput]
    rfl
  rw [Report.results_ofResults, distinct_twoFiles, List.map_cons, List.map_singleton, first, second]

end Request

end SheetLint
