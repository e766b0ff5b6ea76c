import SheetLint.Proofs.Batch

/-!
Why a lint call fails. What can be wrong with a call is a list of problems, in the order in which they
count (`problems`), and a call that fails does so with the first that it has (`lint_first_problem`), or
because the formatter fails. What is read from the files and what the rules do has no part in it.
-/

namespace SheetLint

def FirstWrong {α ε : Type} (wrong : α → ε → Prop) (as : List α) (e : ε) : Prop :=
  ∃ before a after, as = before ++ a :: after ∧ wrong a e ∧ ∀ b ∈ before, ∀ e', ¬wrong b e'

section FirstWrong

variable {α ε : Type} {wrong wrong' : α → ε → Prop} {a : α} {as bs : List α} {e : ε}

theorem not_firstWrong_nil : ¬FirstWrong wrong [] e := by
  rintro ⟨before, a, after, split, -⟩
  cases before <;> cases split

theorem firstWrong_cons :
    FirstWrong wrong (a :: as) e ↔ wrong a e ∨ (∀ e', ¬wrong a e') ∧ FirstWrong wrong as e := by
  constructor
  · rintro ⟨_ | ⟨b, before⟩, c, after, split, here, fine⟩
    · cases split
      exact .inl here
    · cases split
      exact .inr ⟨fine a List.mem_cons_self, before, c, after, rfl, here,
        fun b mem => fine b (.tail _ mem)⟩
  · rintro (here | ⟨fine, before, c, after, rfl, here, fine'⟩)
    · exact ⟨[], a, as, rfl, here, List.forall_mem_nil _⟩
    · exact ⟨a :: before, c, after, rfl, here, List.forall_mem_cons.2 ⟨fine, fine'⟩⟩

theorem firstWrong_append : FirstWrong wrong (as ++ bs) e ↔
    FirstWrong wrong as e ∨ (∀ a ∈ as, ∀ e', ¬wrong a e') ∧ FirstWrong wrong bs e := by
  induction as with
  | nil => simp [not_firstWrong_nil]
  | cons a as ih =>
    rw [List.cons_append, firstWrong_cons, firstWrong_cons, ih, List.forall_mem_cons]
    tauto

theorem forall_not_firstWrong_iff :
    (∀ e, ¬FirstWrong wrong as e) ↔ ∀ a ∈ as, ∀ e, ¬wrong a e := by
  induction as with
  | nil => simp [not_firstWrong_nil]
  | cons a as ih =>
    simp only [firstWrong_cons, List.forall_mem_cons, ← ih, not_or, not_and, forall_and]
    tauto

theorem eq_error_iff_firstWrong {β γ : Type} {read : α → Except ε β} {readAll : List α → Except ε γ}
    (put : α → β → γ → γ) (nil : ∃ c, readAll [] = .ok c)
    (cons : ∀ a as, readAll (a :: as) = (read a).bind fun b => (readAll as).map (put a b))
    (unreadable : ∀ a e, read a = .error e ↔ wrong a e) :
    readAll as = .error e ↔ FirstWrong wrong as e := by
  induction as with
  | nil =>
    obtain ⟨c, nil⟩ := nil
    exact iff_of_false (by simp [nil]) not_firstWrong_nil
  | cons a as ih =>
    rw [cons, firstWrong_cons, ← ih]
    simp only [← unreadable]
    cases read a with
    | error e' => simp [Except.bind]
    | ok b => simp [Except.bind, map_eq_error_iff]

end FirstWrong

/-! ## What can be wrong -/

abbrev Problem := RequestError → Prop

namespace Options

variable (o : Options)

inductive Misshapen : Problem
  | conflicting (code : o.code ≠ none) (files : o.files ≠ []) : Misshapen .conflictingInput
  | missing (code : o.code = none) (files : o.files = []) : Misshapen .missingInput

inductive OddDialect : Problem
  | unknown {name : String} (asked : o.dialect = some name) (other : ∀ d, ¬Dialect.Named name d) :
    OddDialect (.unknownDialect name)

inductive Matchless (fs : FileSystem) : Problem
  | nothing (files : o.files ≠ []) (required : o.allowEmptyInput = false)
    (empty : ∀ pattern ∈ o.files, ∀ found, Glob.search fs pattern = .ok found →
      ∀ m ∈ found, Input.isKept fs m = false) : Matchless fs (.noFilesMatched o.files)

end Options

inductive Malformed : String × Json → Problem
  | setting {name : String} {value : Json} {reason : DecodeError}
    (bad : Setting.ofJson value = .error reason) :
    Malformed (name, value) (.invalidRuleSetting name reason.message)

inductive Refused (registry : Registry) : String × Json → Problem
  | rule {name : String} {value : Json} (absent : registry.get? name = none) :
    Refused registry (name, value) (.unknownRule name)
  | option {name : String} {value primary : Json} {severity : Option Severity}
    {message : Option String} {rule : Rule} {reason : String} (known : registry.get? name = some rule)
    (on : Setting.ofJson value = .ok (.on primary severity message))
    (bad : rule.accepts primary = .error reason) :
    Refused registry (name, value) (.invalidRuleOption name reason)

inductive NoPattern : String → Problem
  | invalid {pattern : String} {error : Glob.PatternError}
    (bad : Glob.Query.ofPattern pattern = .error error) :
    NoPattern pattern (.invalidGlob pattern error)

def fixedProblems (registry : Registry) (o : Options) : List Problem :=
  [o.Misshapen, o.OddDialect, FirstWrong Malformed o.config.rules,
    FirstWrong (Refused registry) o.config.rules, FirstWrong NoPattern o.files]

def problems (registry : Registry) (fs : FileSystem) (o : Options) : List Problem :=
  fixedProblems registry o ++ [o.Matchless fs]

/-! ## Each problem by itself -/

theorem sourceOf_eq_error_iff {o : Options} {e : RequestError} :
    Request.sourceOf o = .error e ↔ o.Misshapen e := by
  constructor
  · intro h
    unfold Request.sourceOf at h
    split at h
    next code files =>
      cases h
      exact .conflicting (by simp [code]) (by simp [files])
    next code files =>
      cases h
      exact .missing code files
    · cases h
    · cases h
  · intro h
    unfold Request.sourceOf
    cases h with
    | conflicting code files =>
      obtain ⟨text, code⟩ := Option.ne_none_iff_exists'.1 code
      obtain ⟨pattern, more, files⟩ := List.exists_cons_of_ne_nil files
      rw [code, files]
    | missing code files => rw [code, files]

theorem dialectOf_eq_error_iff {o : Options} {e : RequestError} :
    Request.dialectOf o = .error e ↔ o.OddDialect e := by
  constructor
  · intro h
    unfold Request.dialectOf at h
    split at h
    · cases h
    next name asked =>
      split at h
      · cases h
      next other =>
        cases h
        exact .unknown asked (Dialect.ofName?_eq_none_iff.1 other)
  · rintro ⟨asked, other⟩
    simp only [Request.dialectOf, asked, Dialect.ofName?_eq_none_iff.2 other]

namespace Plan

variable {registry : Registry} {default : Severity} {e : RequestError}

theorem settings_eq_error_iff {entries : Entries Json} :
    settings entries = .error e ↔ FirstWrong Malformed entries e := by
  have malformed (entry : String × Json) (e : RequestError) :
      ((Setting.ofJson entry.2).mapError fun reason =>
        RequestError.invalidRuleSetting entry.1 reason.message) = .error e ↔ Malformed entry e := by
    rw [mapError_eq_error_iff]
    constructor
    · rintro ⟨reason, bad, rfl⟩
      exact .setting bad
    · rintro ⟨bad⟩
      exact ⟨_, bad, rfl⟩
  refine eq_error_iff_firstWrong (fun entry s more => (entry.1, s) :: more) ⟨[], rfl⟩ ?_ malformed
  intro entry more
  rw [settings]
  cases Setting.ofJson entry.2 <;> rfl

theorem ofSetting_eq_error_iff {name : String} {value : Json} {setting : Setting}
    (read : Setting.ofJson value = .ok setting) :
    ofSetting registry default name setting = .error e ↔ Refused registry (name, value) e := by
  constructor
  · intro h
    unfold ofSetting at h
    split at h
    next absent =>
      cases h
      exact .rule absent
    next rule known =>
      split at h
      · cases h
      next primary severity message =>
        split at h
        next reason bad =>
          cases h
          exact .option known read bad
        · cases h
  · intro h
    unfold ofSetting
    cases h with
    | rule absent => rw [absent]
    | option known on bad =>
      cases read.symm.trans on
      simp only [known, bad]

theorem ofSettings_eq_error_iff {entries : Entries Json} {all : List (String × Setting)}
    (read : settings entries = .ok all) :
    ofSettings registry default all = .error e ↔ FirstWrong (Refused registry) entries e := by
  induction entries generalizing all with
  | nil =>
    cases read
    exact iff_of_false nofun not_firstWrong_nil
  | cons entry entries ih =>
    obtain ⟨name, value⟩ := entry
    rw [settings] at read
    split at read
    · cases read
    next setting meaning =>
      obtain ⟨more, rest, rfl⟩ := map_eq_ok_iff.1 read
      have first (e' : RequestError) : ofSetting registry default name setting = .error e' ↔
          Refused registry (name, value) e' := ofSetting_eq_error_iff meaning
      rw [ofSettings, firstWrong_cons, ← ih rest]
      simp only [← first]
      cases ofSetting registry default name setting with
      | error e' => simp
      | ok planned => simp [map_eq_error_iff]

theorem ofConfig_eq_error_iff {config : Config} :
    ofConfig registry config = .error e ↔
      FirstWrong id [FirstWrong Malformed config.rules, FirstWrong (Refused registry) config.rules]
        e := by
  simp only [firstWrong_cons, not_firstWrong_nil, and_false, or_false, id_eq]
  rw [ofConfig]
  simp only [← settings_eq_error_iff]
  cases read : settings config.rules with
  | error e' => simp
  | ok all => simp [ofSettings_eq_error_iff read]

end Plan

theorem matchesOf_eq_error_iff (fs : FileSystem) {patterns : List String} {e : RequestError} :
    Input.matchesOf fs patterns = .error e ↔ FirstWrong NoPattern patterns e := by
  have invalid (pattern : String) (e : RequestError) :
      (Glob.search fs pattern).mapError (.invalidGlob pattern) = .error e ↔ NoPattern pattern e := by
    simp only [mapError_eq_error_iff, Glob.search, map_eq_error_iff]
    constructor
    · rintro ⟨error, bad, rfl⟩
      exact .invalid bad
    · rintro ⟨bad⟩
      exact ⟨_, bad, rfl⟩
  refine eq_error_iff_firstWrong (fun _ found more => found ++ more) ⟨[], rfl⟩ ?_ invalid
  intro pattern more
  rw [Input.matchesOf]
  cases Glob.search fs pattern <;> rfl

/-! ## The parts of a call -/

section Parts

open Request

variable {registry : Registry} {fs : FileSystem} {o : Options} {r : Request} {e : RequestError}

theorem ofOptions_eq_error_iff : ofOptions registry o = .error e ↔
    FirstWrong id [o.Misshapen, o.OddDialect, FirstWrong Malformed o.config.rules,
      FirstWrong (Refused registry) o.config.rules] e := by
  rw [firstWrong_cons, firstWrong_cons, ← Plan.ofConfig_eq_error_iff, ofOptions]
  simp only [id_eq, ← sourceOf_eq_error_iff, ← dialectOf_eq_error_iff]
  cases sourceOf o with
  | error e' => simp
  | ok source =>
    cases dialectOf o with
    | error e' => simp
    | ok dialect => simp [map_eq_error_iff]

theorem of_ofOptions (made : ofOptions registry o = .ok r) :
    sourceOf o = .ok r.source ∧ r.allowEmptyInput = o.allowEmptyInput := by
  unfold ofOptions at made
  split at made
  · cases made
  next source asked =>
    split at made
    · cases made
    · obtain ⟨plan, -, rfl⟩ := map_eq_ok_iff.1 made
      exact ⟨asked, rfl⟩

theorem mem_matchesOf {patterns : List String} {all : List Glob.Match}
    (matched : Input.matchesOf fs patterns = .ok all) {m : Glob.Match} :
    m ∈ all ↔ ∃ pattern ∈ patterns, ∃ found, Glob.search fs pattern = .ok found ∧ m ∈ found := by
  induction patterns generalizing all with
  | nil =>
    cases matched
    simp
  | cons pattern more ih =>
    rw [Input.matchesOf] at matched
    split at matched
    · cases matched
    next first searched =>
      obtain ⟨others, later, rfl⟩ := map_eq_ok_iff.1 matched
      simp [ih later, searched]

theorem pathsOf_eq_nil_iff {found : List Glob.Match} :
    Input.pathsOf fs found = [] ↔ ∀ m ∈ found, Input.isKept fs m = false := by
  rw [Input.pathsOf]
  cases kept : found.filter (Input.isKept fs) with
  | nil =>
    rw [List.filter_eq_nil_iff] at kept
    simpa using kept
  | cons m more =>
    have mem : m ∈ found.filter (Input.isKept fs) := by rw [kept]; exact List.mem_cons_self
    rw [List.map_cons, List.eraseDupsBy_cons]
    obtain ⟨among, isKept⟩ := List.mem_filter.1 mem
    exact iff_of_false (List.cons_ne_nil _ _) fun none => by simp [none m among] at isKept

theorem exists_run_code (fs : FileSystem) {text : String} {fileName : Option String}
    (source : r.source = .code text fileName) : ∃ report, r.run fs = .ok report := by
  obtain ⟨dialect, read⟩ :
      ∃ dialect, Input.dialectOf (r.dialect.map Dialect.name) fileName = .ok dialect := by
    cases r.dialect with
    | none => exact ⟨_, rfl⟩
    | some d => exact ⟨d, by simp only [Option.map_some, Input.dialectOf, Dialect.ofName?_name]⟩
  rw [run, inputs, source, Input.expand, read]
  exact ⟨_, rfl⟩

theorem matchless_iff {all : List Glob.Match} (matched : Input.matchesOf fs o.files = .ok all)
    (files : o.files ≠ []) : o.Matchless fs e ↔
      (Input.pathsOf fs all = [] ∧ o.allowEmptyInput = false) ∧ .noFilesMatched o.files = e := by
  rw [pathsOf_eq_nil_iff]
  constructor
  · rintro ⟨-, required, empty⟩
    refine ⟨⟨?_, required⟩, rfl⟩
    intro m mem
    obtain ⟨pattern, asked, found, searched, among⟩ := (mem_matchesOf matched).1 mem
    exact empty pattern asked found searched m among
  · rintro ⟨⟨none, required⟩, rfl⟩
    refine .nothing files required ?_
    intro pattern asked found searched m among
    exact none m ((mem_matchesOf matched).2 ⟨pattern, asked, found, searched, among⟩)

theorem run_files_eq_error_iff (source : r.source = .files o.files) (files : o.files ≠ [])
    (allowed : r.allowEmptyInput = o.allowEmptyInput) :
    r.run fs = .error e ↔ FirstWrong id [FirstWrong NoPattern o.files, o.Matchless fs] e := by
  simp only [firstWrong_cons, not_firstWrong_nil, and_false, or_false, id_eq,
    ← matchesOf_eq_error_iff fs]
  cases matched : Input.matchesOf fs o.files with
  | error e' =>
    rw [run, inputs, source, Input.expand, matched]
    simp [Except.map]
  | ok all =>
    rw [matchless_iff matched files]
    by_cases enough : Input.pathsOf fs all ≠ [] ∨ r.allowEmptyInput = true
    · rw [run_eq source matched enough]
      refine iff_of_false (fun given => by cases given) ?_
      rintro (⟨⟨⟩⟩ | ⟨-, ⟨empty, required⟩, -⟩)
      rcases enough with nonempty | allows
      · exact nonempty empty
      · simp [allowed, required] at allows
    · rw [not_or, not_not, Bool.not_eq_true, allowed] at enough
      have none : Input.distinct fs.isDirectory [] all = [] := by
        rw [← List.map_eq_nil_iff (f := Glob.Match.path), Input.paths_distinct, enough.1]
      rw [run, inputs, source, Input.expand_eq r.dialect matched, none]
      simp [enough, allowed, Except.map]

theorem run_eq_error_iff (made : ofOptions registry o = .ok r) :
    r.run fs = .error e ↔ FirstWrong id [FirstWrong NoPattern o.files, o.Matchless fs] e := by
  obtain ⟨asked, allowed⟩ := of_ofOptions made
  unfold sourceOf at asked
  split at asked
  · cases asked
  · cases asked
  next text code files =>
    obtain ⟨report, ran⟩ := exists_run_code fs (Except.ok.inj asked).symm
    simp only [firstWrong_cons, not_firstWrong_nil, and_false, or_false, id_eq, ran, files]
    refine iff_of_false nofun ?_
    rintro (⟨⟨⟩⟩ | ⟨-, nonempty, -⟩)
    exact nonempty files
  next code nonempty => exact run_files_eq_error_iff (Except.ok.inj asked).symm nonempty allowed

end Parts

/-! ## A whole call -/

section Call

variable {registry : Registry} {fs : FileSystem} {o : Options} {e : RequestError}

def Reports (registry : Registry) (fs : FileSystem) (o : Options) (report : Report) : Prop :=
  ∃ request, Request.ofOptions registry o = .ok request ∧ request.run fs = .ok report

theorem problems_eq (registry : Registry) (fs : FileSystem) (o : Options) : problems registry fs o =
    [o.Misshapen, o.OddDialect, FirstWrong Malformed o.config.rules,
      FirstWrong (Refused registry) o.config.rules] ++ [FirstWrong NoPattern o.files, o.Matchless fs] :=
  rfl

theorem lint_eq_request_error_iff :
    lint registry fs o = .error (.request e) ↔ FirstWrong id (problems registry fs o) e := by
  rw [problems_eq, firstWrong_append, ← forall_not_firstWrong_iff]
  simp only [← ofOptions_eq_error_iff, lint]
  cases made : Request.ofOptions registry o with
  | error e' => simp
  | ok request =>
    rw [← run_eq_error_iff made]
    cases ran : request.run fs with
    | error e' => simp [ran]
    | ok report => cases output : o.formatter.getD .json report <;> simp [ran, output]

structure Formatted (registry : Registry) (fs : FileSystem) (o : Options) (report : Report) : Prop where
  reports : Reports registry fs o report
  fails : ∀ e, lint registry fs o = .error (.formatter e) ↔ o.formatter.getD .json report = .error e
  succeeds : ∀ out, lint registry fs o = .ok out ↔
    o.formatter.getD .json report = .ok out.output ∧ out.report = report

theorem exists_formatted (none : ∀ problem ∈ problems registry fs o, ∀ e, ¬problem e) :
    ∃ report, Formatted registry fs o report := by
  have none : ∀ e, lint registry fs o ≠ .error (.request e) := by
    intro e failed
    exact forall_not_firstWrong_iff.2 none e (lint_eq_request_error_iff.1 failed)
  cases made : Request.ofOptions registry o with
  | error e =>
    have failed : lint registry fs o = .error (.request e) := by simp only [lint, made]
    exact absurd failed (none e)
  | ok request =>
    cases ran : request.run fs with
    | error e =>
      have failed : lint registry fs o = .error (.request e) := by simp only [lint, made, ran]
      exact absurd failed (none e)
    | ok report =>
      refine ⟨report, ⟨request, made, ran⟩, fun e => ?_, fun out => ?_⟩
      · simp only [lint, made, ran]
        cases o.formatter.getD .json report <;> simp
      · simp only [lint, made, ran]
        cases o.formatter.getD .json report with
        | error e => simp
        | ok output =>
          obtain ⟨output', report'⟩ := out
          simp [eq_comm]

end Call

/-! ## What has no part in it -/

/-- Whether two registries have rules of the same names that accept the same options. What the rules
do may differ. -/
def Registry.SameOptions (r r' : Registry) : Prop :=
  List.Forall₂ (fun a b : Rule => a.name = b.name ∧ a.accepts = b.accepts) r.rules r'.rules

section Same

variable {registry registry' : Registry} {fs fs' : FileSystem}

theorem accepts_find? {rules rules' : List Rule}
    (same : List.Forall₂ (fun a b : Rule => a.name = b.name ∧ a.accepts = b.accepts) rules rules')
    (name : String) : (rules.find? (·.name = name)).map Rule.accepts =
      (rules'.find? (·.name = name)).map Rule.accepts := by
  induction same with
  | nil => rfl
  | @cons a b as bs alike _ ih =>
    rw [List.find?_cons, List.find?_cons, alike.1]
    cases decide (b.name = name) with
    | true => exact congrArg some alike.2
    | false => exact ih

theorem Registry.SameOptions.get? (same : registry.SameOptions registry') (name : String) :
    (registry.get? name).map Rule.accepts = (registry'.get? name).map Rule.accepts :=
  accepts_find? same name

theorem refused_of_same (same : registry.SameOptions registry') {entry : String × Json}
    {e : RequestError} (refused : Refused registry entry e) : Refused registry' entry e := by
  cases refused with
  | @rule name value absent =>
    have accepts := same.get? name
    rw [absent, Option.map_none, eq_comm, Option.map_eq_none_iff] at accepts
    exact .rule accepts
  | @option name value primary severity message rule reason known on bad =>
    have accepts := same.get? name
    rw [known, Option.map_some, eq_comm, Option.map_eq_some_iff] at accepts
    obtain ⟨rule', known', alike⟩ := accepts
    rw [← alike] at bad
    exact .option known' on bad

theorem matchless_of_emptied (same : fs'.emptied = fs.emptied) {o : Options} {e : RequestError}
    (matchless : o.Matchless fs e) : o.Matchless fs' e := by
  have searched (pattern : String) : Glob.search fs' pattern = Glob.search fs pattern := by
    rw [← Glob.search_emptied, same, Glob.search_emptied]
  have kept : Input.isKept fs' = Input.isKept fs := by
    funext m
    cases m with
    | unreadable => rfl
    | found path =>
      rw [Input.isKept, Input.isKept, ← FileSystem.isDirectory_emptied, same,
        FileSystem.isDirectory_emptied]
  obtain ⟨files, required, empty⟩ := matchless
  refine .nothing files required ?_
  simpa only [searched, kept] using empty

theorem Registry.SameOptions.symm (same : registry.SameOptions registry') :
    registry'.SameOptions registry :=
  List.Forall₂.flip (same.imp fun _ _ alike => ⟨alike.1.symm, alike.2.symm⟩)

theorem problems_eq_of_same (options : registry.SameOptions registry')
    (files : fs'.emptied = fs.emptied) (o : Options) :
    problems registry' fs' o = problems registry fs o := by
  have refused : Refused registry' = Refused registry := by
    funext entry e
    exact propext ⟨refused_of_same options.symm, refused_of_same options⟩
  have matchless : o.Matchless fs' = o.Matchless fs := by
    funext e
    exact propext ⟨matchless_of_emptied files.symm, matchless_of_emptied files⟩
  rw [problems_eq, problems_eq, refused, matchless]

end Same

/-- A call fails with the first of its problems, whatever others it has. With none it comes to a report,
and then it fails only if the formatter does. Of the problems only the last depends on the file system,
and none depends on what is in the files and what the rules do: a file that cannot be read or parsed and
a rule that fails or crashes make no call fail. -/
theorem lint_first_problem (registry : Registry) (fs : FileSystem) (o : Options) :
    (∀ e, lint registry fs o = .error (.request e) ↔ FirstWrong id (problems registry fs o) e) ∧
    ((∀ problem ∈ problems registry fs o, ∀ e, ¬problem e) →
      ∃ report, Formatted registry fs o report) ∧
    (∀ e, FirstWrong id (fixedProblems registry o) e →
      ∀ fs', lint registry fs' o = .error (.request e)) ∧
    ∀ registry' fs', registry.SameOptions registry' → fs'.emptied = fs.emptied → ∀ e,
      lint registry' fs' o = .error (.request e) ↔ lint registry fs o = .error (.request e) := by
  refine ⟨fun e => lint_eq_request_error_iff, exists_formatted, ?_, ?_⟩
  · intro e first fs'
    rw [lint_eq_request_error_iff, problems, firstWrong_append]
    exact .inl first
  · intro registry' fs' options files e
    rw [lint_eq_request_error_iff, lint_eq_request_error_iff, problems_eq_of_same options files]

example : lint .builtIn .empty
    { Options.ofConfig ⟨[("no-such-rule", .bool true),
        ("block-no-empty", .array [.bool true, .object [("message", .array [])]])], none⟩ with
      code := some "" } =
    .error (.request (.invalidRuleSetting "block-no-empty"
      "invalid type: sequence, expected a string")) := by
  rfl

end SheetLint
