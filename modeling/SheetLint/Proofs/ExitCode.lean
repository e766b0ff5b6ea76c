import SheetLint.CommandLine.Run
import SheetLint.Proofs.Brace.Pieces
import SheetLint.Proofs.FileSystem.Names
import SheetLint.Proofs.Json.RoundTrip

namespace SheetLint

def Summary.add (a b : Summary) : Summary where
  errors := a.errors + b.errors
  warnings := a.warnings + b.warnings
  fatal := a.fatal + b.fatal
  inputs := a.inputs + b.inputs

namespace Report

structure Counted (results : List InputResult) (report : Report) : Prop where
  kept : report.results = results
  inputs : report.summary.inputs = results.length
  errors : report.summary.errors = (results.flatMap (·.violations)).countP (·.severity = .error)
  warnings : report.summary.warnings = (results.flatMap (·.violations)).countP (·.severity = .warning)
  fatal : report.summary.fatal = results.countP (·.fault.isSome)
  errored : report.errored = true ↔ 0 < report.summary.errors + report.summary.fatal

theorem count_eq (results : List InputResult) (s : Severity) :
    count results s = (results.flatMap (·.violations)).countP (·.severity = s) := by
  have onward (n : Nat) : results.foldl (fun n r => n + r.count s) n =
      n + (results.flatMap (·.violations)).countP (·.severity = s) := by
    induction results generalizing n with
    | nil => rfl
    | cons r results ih =>
      rw [List.foldl_cons, ih, List.flatMap_cons, List.countP_append, InputResult.count,
        Nat.add_assoc]
  rw [count, onward, Nat.zero_add]

theorem errored_iff (results : List InputResult) : results.any InputResult.isErrored = true ↔
    0 < (results.flatMap (·.violations)).countP (·.severity = .error) +
      results.countP (·.fault.isSome) := by
  rw [Nat.add_pos_iff_pos_or_pos, List.countP_pos_iff, List.countP_pos_iff, List.any_eq_true]
  simp only [InputResult.isErrored, Bool.or_eq_true, List.any_eq_true, List.mem_flatMap]
  constructor
  · rintro ⟨r, mem, fault | ⟨v, found, error⟩⟩
    · exact .inr ⟨r, mem, fault⟩
    · exact .inl ⟨v, ⟨r, mem, found⟩, error⟩
  · rintro (⟨v, ⟨r, mem, found⟩, error⟩ | ⟨r, mem, fault⟩)
    · exact ⟨r, mem, .inr ⟨v, found, error⟩⟩
    · exact ⟨r, mem, .inl fault⟩

theorem counted_ofResults (results : List InputResult) : Counted results (ofResults results) where
  kept := rfl
  inputs := rfl
  errors := count_eq results .error
  warnings := count_eq results .warning
  fatal := rfl
  errored := by
    rw [ofResults, summarize, count_eq]
    exact errored_iff results

theorem summarize_append (xs ys : List InputResult) :
    summarize (xs ++ ys) = (summarize xs).add (summarize ys) := by
  simp only [summarize, Summary.add, count_eq, List.flatMap_append, List.countP_append,
    List.length_append]

theorem summarize_perm {xs ys : List InputResult} (perm : xs.Perm ys) :
    summarize xs = summarize ys := by
  have violations : (xs.flatMap (·.violations)).Perm (ys.flatMap (·.violations)) :=
    perm.flatMap_right _
  simp only [summarize, count_eq, violations.countP_eq, perm.countP_eq, perm.length_eq]

theorem clean_iff (results : List InputResult) : (ofResults results).errored = false ↔
    ∀ r ∈ results, r.fault = none ∧ ∀ v ∈ r.violations, v.severity = .warning := by
  have warning (v : Violation) : v.severity ≠ .error ↔ v.severity = .warning := by
    cases v.severity <;> decide
  rw [ofResults, List.any_eq_false]
  simp only [InputResult.isErrored, Bool.or_eq_true, not_or, Option.not_isSome_iff_eq_none,
    List.any_eq_true, not_exists, not_and, decide_eq_true_eq, warning]

end Report

namespace Formatter

inductive Named (l : Listing) : String → Formatter → Prop
  | json : Named l "json" json
  | listing : Named l "string" (listing l)

variable {l : Listing} {name : String} {f g : Formatter}

theorem ofName_eq_ok_iff : ofName l name = .ok f ↔ Named l name f := by
  constructor
  · intro found
    unfold ofName at found
    split at found
    next same =>
      cases same
      cases found
      exact .json
    next =>
      split at found
      next same =>
        cases same
        cases found
        exact .listing
      next => cases found
  · rintro (_ | _) <;> rfl

theorem Named.unique (named : Named l name f) (other : Named l name g) : g = f :=
  Except.ok.inj ((ofName_eq_ok_iff.2 other).symm.trans (ofName_eq_ok_iff.2 named))

end Formatter

namespace CommandLine

variable {s : Surroundings} {a : LintArguments} {out : LintOutput}

def LintArguments.options (a : LintArguments) (config : Config) (code : Option String)
    (formatter : Formatter) : Options :=
  ⟨config, code, a.stdinFilename, a.files, a.dialect, some formatter, a.allowEmptyInput⟩

def Completes (s : Surroundings) (a : LintArguments) (out : LintOutput) : Prop :=
  ∃ config told code formatter, s.config a.config = .ok (config, told) ∧ s.code a = .ok code ∧
    Formatter.Named s.listing a.formatter formatter ∧
    SheetLint.lint .builtIn s.fileSystem (a.options config code formatter) = .ok out

inductive Fails (s : Surroundings) (a : LintArguments) : Prop
  | config {e : RequestError} (failed : s.config a.config = .error e)
  | stdin {e : IoError} (failed : s.code a = .error e)
  | formatter (unknown : ∀ formatter, ¬Formatter.Named s.listing a.formatter formatter)
  | lint {config : Config} {told : String} {code : Option String} {formatter : Formatter}
    {e : LintError} (loaded : s.config a.config = .ok (config, told)) (read : s.code a = .ok code)
    (named : Formatter.Named s.listing a.formatter formatter)
    (failed : SheetLint.lint .builtIn s.fileSystem (a.options config code formatter) = .error e)

/-- What the code with which a run of the linter exits says of the run. -/
structure ExitsBy (s : Surroundings) (a : LintArguments) (code : Nat) : Prop where
  ends : Fails s a ∨ ∃ out, Completes s a out
  failed : code = 1 ↔ Fails s a
  errored : ∀ out, Completes s a out →
    (code = 2 ↔ 0 < out.report.summary.errors + out.report.summary.fatal)
  clean : ∀ out, Completes s a out →
    (code = 0 ↔ ∀ r ∈ out.report.results, r.fault = none ∧ ∀ v ∈ r.violations, v.severity = .warning)

theorem exists_results {registry : Registry} {fs : FileSystem} {o : Options} {out : LintOutput}
    (linted : SheetLint.lint registry fs o = .ok out) :
    ∃ results, out.report = .ofResults results := by
  unfold SheetLint.lint at linted
  split at linted
  · cases linted
  next request made =>
    split at linted
    · cases linted
    next report ran =>
      split at linted
      · cases linted
      · cases linted
        obtain ⟨inputs, -, rfl⟩ := map_eq_ok_iff.1 ran
        exact ⟨_, rfl⟩

theorem not_fails (completes : Completes s a out) : ¬Fails s a := by
  obtain ⟨config, told, code, formatter, loaded, read, named, linted⟩ := completes
  rintro (failed | failed | unknown | ⟨loaded', read', named', failed⟩)
  · cases loaded.symm.trans failed
  · cases read.symm.trans failed
  · exact unknown formatter named
  · cases loaded.symm.trans loaded'
    cases read.symm.trans read'
    cases named.unique named'
    cases linted.symm.trans failed

theorem completes_unique {out' : LintOutput} (completes : Completes s a out)
    (completes' : Completes s a out') : out' = out := by
  obtain ⟨config, told, code, formatter, loaded, read, named, linted⟩ := completes
  obtain ⟨config', told', code', formatter', loaded', read', named', linted'⟩ := completes'
  cases loaded.symm.trans loaded'
  cases read.symm.trans read'
  cases named.unique named'
  cases linted.symm.trans linted'
  rfl

theorem exitsBy_of_fails (fails : Fails s a) : ExitsBy s a Outcome.failure :=
  ⟨.inl fails, iff_of_true rfl fails, fun _ completes => absurd fails (not_fails completes),
    fun _ completes => absurd fails (not_fails completes)⟩

theorem exitsBy_of_completes (completes : Completes s a out) :
    ExitsBy s a (if out.report.errored then Outcome.refusal else Outcome.success) := by
  obtain ⟨results, report⟩ : ∃ results, out.report = .ofResults results := by
    obtain ⟨config, told, code, formatter, -, -, -, linted⟩ := completes
    exact exists_results linted
  refine ⟨.inr ⟨out, completes⟩, iff_of_false ?_ (not_fails completes), ?_, ?_⟩
  · split <;> decide
  · intro out' completes'
    rw [completes_unique completes completes', report, ← (Report.counted_ofResults results).errored]
    cases (Report.ofResults results).errored <;> decide
  · intro out' completes'
    rw [completes_unique completes completes', report]
    refine Iff.trans ?_ (Report.clean_iff results)
    cases (Report.ofResults results).errored <;> decide

theorem exitsBy_lint (s : Surroundings) (a : LintArguments) : ExitsBy s a (s.lint a).code := by
  unfold Surroundings.lint
  split
  next e failed => exact exitsBy_of_fails (.config failed)
  next config told loaded =>
    simp only
    split
    next e failed => exact exitsBy_of_fails (.stdin failed)
    next code read =>
      split
      next e failed =>
        refine exitsBy_of_fails (.formatter fun formatter named => ?_)
        cases failed.symm.trans (Formatter.ofName_eq_ok_iff.2 named)
      next formatter found =>
        have named := Formatter.ofName_eq_ok_iff.1 found
        split
        next e failed => exact exitsBy_of_fails (.lint loaded read named failed)
        next out linted =>
          exact exitsBy_of_completes ⟨config, told, code, formatter, loaded, read, named, linted⟩

/-- Reports count what is in them, the counts of two lists of results add up, and the order of the
results does not matter. A report is errored exactly if it counts an error or a fault, and a run of
the linter exits with 1 if something fails in it, with 2 if its report is errored, and with 0 if the
report has only warnings or nothing. -/
theorem run_exit_code :
    (∀ results, Report.Counted results (.ofResults results)) ∧
    (∀ xs ys, (Report.ofResults (xs ++ ys)).summary =
        (Report.ofResults xs).summary.add (Report.ofResults ys).summary ∧
      (Report.ofResults (xs ++ ys)).errored =
        ((Report.ofResults xs).errored || (Report.ofResults ys).errored)) ∧
    (∀ xs ys, xs.Perm ys → (Report.ofResults xs).summary = (Report.ofResults ys).summary ∧
      (Report.ofResults xs).errored = (Report.ofResults ys).errored) ∧
    ∀ s arguments verbose debug a,
      Invocation.ofArguments arguments = .ok ⟨verbose, debug, .lint a⟩ →
        ExitsBy s a (run s arguments).code := by
  refine ⟨Report.counted_ofResults, fun xs ys => ⟨Report.summarize_append xs ys, List.any_append⟩,
    fun xs ys perm => ⟨Report.summarize_perm perm, perm.any_eq⟩, ?_⟩
  intro s arguments verbose debug a asked
  rw [run, asked]
  exact exitsBy_lint s a

def twoConfigs : FileSystem :=
  ⟨.directory none
    [("e", .file (.ok "[\x7b\"block-no-empty\":true\x7d,null]")),
      ("w", .file (.ok "[\x7b\"block-no-empty\":true\x7d,\"warning\"]"))], []⟩

theorem load_twoConfigs :
    Config.load twoConfigs "e" = .ok ⟨[("block-no-empty", .bool true)], none⟩ ∧
    Config.load twoConfigs "w" = .ok ⟨[("block-no-empty", .bool true)], some .warning⟩ := by
  have load {name text : String} {config : Config} (isName : IsName name)
      (format : Config.Format.ofPath name = .json)
      (found : twoConfigs.root.child? name = some (.file (.ok text)))
      (means : Config.ofJsonText? text = some config) : Config.load twoConfigs name = .ok config := by
    have leads : twoConfigs.lookup name = .ok (.file (.ok text)) :=
      FileSystem.lookup_name rfl isName found (by rintro _ ⟨⟩)
    simp only [Config.load, FileSystem.read, leads, format, Config.ofText?, means]
  constructor
  · refine load (by decide) (by decide) rfl ?_
    have tokens : Json.Token.tokens? "[\x7b\"block-no-empty\":true\x7d,null]".toList =
        some [.openArray, .openObject, .string (some "block-no-empty"), .colon, .bool true,
          .closeObject, .comma, .null, .closeArray] := by
      repeat refine Json.Token.tokens?_cons rfl rfl ?_
      exact Json.Token.tokens?_nil
    rw [Config.ofJsonText?, Json.Draft.ofChars?, tokens]
    rfl
  · refine load (by decide) (by decide) rfl ?_
    have tokens : Json.Token.tokens? "[\x7b\"block-no-empty\":true\x7d,\"warning\"]".toList =
        some [.openArray, .openObject, .string (some "block-no-empty"), .colon, .bool true,
          .closeObject, .comma, .string (some "warning"), .closeArray] := by
      repeat refine Json.Token.tokens?_cons rfl rfl ?_
      exact Json.Token.tokens?_nil
    rw [Config.ofJsonText?, Json.Draft.ofChars?, tokens]
    rfl

def onEmptyBlock (config : String) : LintArguments :=
  ⟨[], some "\x7b\x7d", false, none, some config, none, "json", false⟩

def reportOnEmptyBlock (severity : Severity) : Report :=
  .ofResults [⟨"<input>", .css, [⟨"block-no-empty", ⟨1, 1⟩, "Unexpected empty block (block-no-empty)",
    severity⟩], none, some ⟨.css, 1⟩⟩]

theorem completes_onEmptyBlock {config : String} {severity : Option Severity}
    (loaded : Config.load s.fileSystem config =
      .ok ⟨[("block-no-empty", .bool true)], severity⟩) :
    ∃ output, Completes s (onEmptyBlock config) ⟨output, reportOnEmptyBlock (severity.getD .error)⟩ := by
  have parsed : Dialect.css.parse "\x7b\x7d" = .ok ⟨[.block (.selector "") ⟨1, 1⟩ ⟨1, 1⟩ []]⟩ := by
    have opening : Brace.Piece.next .css (Cell.ofChars .start "\x7b\x7d".toList) =
        .ok (some (.opening [] ⟨1, 1⟩, Cell.ofChars ⟨1, 2⟩ "\x7d".toList)) := rfl
    have closing : Brace.Piece.next .css (Cell.ofChars ⟨1, 2⟩ "\x7d".toList) =
        .ok (some (.closing ⟨1, 2⟩, [])) := rfl
    have read : Brace.Outline.empty.readAll .css (some Sheet.maxNesting)
        (Cell.ofChars .start "\x7b\x7d".toList) = .ok [.block (.selector "") ⟨1, 1⟩ ⟨1, 1⟩ []] := by
      rw [Brace.Outline.readAll_eq, opening]
      refine (Brace.Outline.readAll_eq ..).trans ?_
      rw [closing]
      exact Brace.Outline.readAll_eq ..
    exact congrArg (Except.map Sheet.mk) read
  have made : Request.ofOptions .builtIn ((onEmptyBlock config).options
        ⟨[("block-no-empty", .bool true)], severity⟩ (some "\x7b\x7d") Formatter.json) =
      .ok ⟨.code "\x7b\x7d" none, none,
        [⟨Rule.blockNoEmpty, .bool true, severity.getD .error, none⟩], false⟩ := rfl
  have checked : Check.checkInput [⟨Rule.blockNoEmpty, .bool true, severity.getD .error, none⟩]
      ⟨"<input>", none, .css, .ok "\x7b\x7d"⟩ =
        ⟨"<input>", .css, [⟨"block-no-empty", ⟨1, 1⟩, "Unexpected empty block (block-no-empty)",
          severity.getD .error⟩], none, some ⟨.css, 1⟩⟩ := by
    simp only [Check.checkInput, Check.checkText, parsed, Check.violations, List.flatMap_singleton]
    exact congrArg (InputResult.checked _ _ · _) (List.mergeSort_singleton _)
  have ran : Request.run s.fileSystem ⟨.code "\x7b\x7d" none, none,
      [⟨Rule.blockNoEmpty, .bool true, severity.getD .error, none⟩], false⟩ =
        .ok (reportOnEmptyBlock (severity.getD .error)) :=
    congrArg (fun r => Except.ok (Report.ofResults [r])) checked
  have linted : SheetLint.lint .builtIn s.fileSystem ((onEmptyBlock config).options
      ⟨[("block-no-empty", .bool true)], severity⟩ (some "\x7b\x7d") Formatter.json) =
        .ok ⟨String.ofList (reportOnEmptyBlock (severity.getD .error)).toJson.pretty,
          reportOnEmptyBlock (severity.getD .error)⟩ := by
    rw [SheetLint.lint, made]
    simp only [ran]
    rfl
  exact ⟨_, _, _, _, _, congrArg (Except.map (·, "")) loaded, rfl, .json, linted⟩

theorem run_exit_code_empty_block :
    (run ⟨.empty, .error .notText, false⟩ ["lint", "--stdin"]).code = 1 ∧
    (run ⟨twoConfigs, .ok "", false⟩ ["lint", "--config", "e", "--code", "\x7b\x7d"]).code = 2 ∧
    (run ⟨twoConfigs, .ok "", false⟩ ["lint", "--config", "w", "--code", "\x7b\x7d"]).code = 0 ∧
    ∃ output, Completes ⟨twoConfigs, .ok "", false⟩ (onEmptyBlock "w")
      ⟨output, reportOnEmptyBlock .warning⟩ := by
  have asked : Invocation.ofArguments ["lint", "--config", "e", "--code", "\x7b\x7d"] =
      .ok ⟨false, false, .lint (onEmptyBlock "e")⟩ := rfl
  have asked' : Invocation.ofArguments ["lint", "--config", "w", "--code", "\x7b\x7d"] =
      .ok ⟨false, false, .lint (onEmptyBlock "w")⟩ := rfl
  obtain ⟨e, w⟩ := load_twoConfigs
  obtain ⟨output, errors⟩ := completes_onEmptyBlock (s := ⟨twoConfigs, .ok "", false⟩) e
  obtain ⟨output', warns⟩ := completes_onEmptyBlock (s := ⟨twoConfigs, .ok "", false⟩) w
  have counted : 0 < (reportOnEmptyBlock .error).summary.errors +
      (reportOnEmptyBlock .error).summary.fatal := by decide
  have mild : ∀ r ∈ (reportOnEmptyBlock .warning).results, r.fault = none ∧
      ∀ v ∈ r.violations, v.severity = .warning := by decide
  obtain ⟨-, -, -, exits⟩ := run_exit_code
  refine ⟨?_, ?_, ?_, output', warns⟩
  · have fails : Fails ⟨.empty, .error .notText, false⟩
        ⟨[], none, true, none, none, none, "json", false⟩ := .stdin rfl
    exact (exits _ _ false false _ rfl).failed.2 fails
  · exact ((exits _ _ false false _ asked).errored _ errors).2 counted
  · exact ((exits _ _ false false _ asked').clean _ warns).2 mild

end CommandLine

end SheetLint
