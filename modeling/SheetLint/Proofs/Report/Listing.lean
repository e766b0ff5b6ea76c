import SheetLint.Proofs.Batch
import SheetLint.Proofs.Brace.Classification
import SheetLint.Proofs.ExitCode
import SheetLint.Proofs.Indented.Values
import SheetLint.Proofs.Isolation
import SheetLint.Proofs.Places

/-!
The lines of a listing. Each finding has an entry of its own, which is one line unless the message of
the finding has a newline in it. Of the messages of the built-in rules and of the refusals of texts
only one can have: that on a duplicate property whose name, in a dialect with braces, runs over several
lines. So a listing has one line for each finding and one for the counts exactly if nothing is found of
this kind (`listsFindings_of_run`).
-/

namespace SheetLint

/-! ## Lines -/

def lineCount (text : String) : Nat :=
  text.toList.count '\n'

def IsLine (text : String) : Prop :=
  ∃ line, lineCount line = 0 ∧ text = line ++ "\n"

@[simp]
theorem lineCount_append (a b : String) : lineCount (a ++ b) = lineCount a + lineCount b := by
  rw [lineCount, String.toList_append, List.count_append]
  rfl

theorem lineCount_toString (n : Nat) : lineCount (toString n) = 0 := by
  refine List.count_eq_zero.2 fun newline => ?_
  rw [Nat.toString_eq_ofList_toDigits, String.toList_ofList] at newline
  cases Nat.isDigit_of_mem_toDigits (by omega) (by omega) newline

theorem isLine_append_newline_iff {line : String} : IsLine (line ++ "\n") ↔ lineCount line = 0 := by
  constructor
  · rintro ⟨line', inline, same⟩
    have count := congrArg lineCount same
    rw [lineCount_append, lineCount_append, inline] at count
    omega
  · exact fun inline => ⟨line, inline, rfl⟩

theorem length_le_lineCount_join {texts : List String} (ended : ∀ t ∈ texts, ∃ line, t = line ++ "\n") :
    texts.length ≤ lineCount (String.join texts) := by
  induction texts with
  | nil => exact Nat.zero_le _
  | cons t texts ih =>
    obtain ⟨line, rfl⟩ := ended t List.mem_cons_self
    have later := ih fun t mem => ended t (List.mem_cons_of_mem _ mem)
    have newline : lineCount "\n" = 1 := rfl
    rw [String.join_cons, lineCount_append, lineCount_append, newline, List.length_cons]
    omega

theorem lineCount_join_eq_iff {texts : List String} (ended : ∀ t ∈ texts, ∃ line, t = line ++ "\n") :
    lineCount (String.join texts) = texts.length ↔ ∀ t ∈ texts, IsLine t := by
  induction texts with
  | nil => exact iff_of_true rfl nofun
  | cons t texts ih =>
    obtain ⟨line, rfl⟩ := ended t List.mem_cons_self
    have later : ∀ t ∈ texts, ∃ line, t = line ++ "\n" := fun t mem =>
      ended t (List.mem_cons_of_mem _ mem)
    have least := length_le_lineCount_join later
    have newline : lineCount "\n" = 1 := rfl
    rw [List.forall_mem_cons, ← ih later, isLine_append_newline_iff, String.join_cons, lineCount_append,
      lineCount_append, newline, List.length_cons]
    omega

/-! ## Entries -/

/-- What keeps an input from being checked, or else what is found in it. -/
def InputResult.findings (i : InputResult) : List (InputFault ⊕ Violation) :=
  i.fault.toList.map .inl ++ i.violations.map .inr

theorem InputResult.inr_mem_findings {i : InputResult} {v : Violation} :
    .inr v ∈ i.findings ↔ v ∈ i.violations := by
  simp [findings]

namespace Listing

def shown : InputFault ⊕ Violation → String
  | .inl (.unparsable message _) => message
  | .inl (.unreadable message) => (InputFault.unreadable message).message
  | .inr v => v.message

def entry (source : String) : InputFault ⊕ Violation → String
  | .inl fault => plain.faultLine source fault
  | .inr v => plain.violationLine source v

def entries (report : Report) : List String :=
  report.results.flatMap fun i => i.findings.map (entry i.source)

theorem exists_line (color : Terminal.Color) {label : String × String}
    (labels : lineCount label.1 = 0 ∧ lineCount label.2 = 0) (source : String) (pos : Position)
    (message : String) : ∃ line, plain.line color label source pos message = line ++ "\n" ∧
      lineCount line = lineCount source + lineCount message := by
  refine ⟨label.1 ++ " " ++ label.2 ++ " " ++ source ++ ":" ++ toString pos.line ++ ":" ++
    toString pos.column ++ " — " ++ message, rfl, ?_⟩
  have blank : lineCount " " = 0 := rfl
  have colon : lineCount ":" = 0 := rfl
  have dash : lineCount " — " = 0 := rfl
  simp only [lineCount_append, lineCount_toString, labels.1, labels.2, blank, colon, dash, Nat.zero_add,
    Nat.add_zero]

theorem exists_entry (source : String) (f : InputFault ⊕ Violation) :
    ∃ line, entry source f = line ++ "\n" ∧
      lineCount line = lineCount source + lineCount (shown f) := by
  match f with
  | .inl (.unparsable message pos) => exact exists_line .red ⟨rfl, rfl⟩ source pos message
  | .inl (.unreadable message) => exact exists_line .red ⟨rfl, rfl⟩ source .start _
  | .inr v =>
    have labels : lineCount (labelOf v.severity).1 = 0 ∧ lineCount (labelOf v.severity).2 = 0 := by
      cases v.severity <;> exact ⟨rfl, rfl⟩
    exact exists_line _ labels source v.pos v.message

theorem isLine_entry_iff {source : String} {f : InputFault ⊕ Violation} :
    IsLine (entry source f) ↔ lineCount source = 0 ∧ lineCount (shown f) = 0 := by
  obtain ⟨line, whole, count⟩ := exists_entry source f
  rw [whole, isLine_append_newline_iff, count, Nat.add_eq_zero_iff]

theorem lineCount_entry (source : String) (f : InputFault ⊕ Violation) :
    lineCount (entry source f) = lineCount source + lineCount (shown f) + 1 := by
  obtain ⟨line, whole, count⟩ := exists_entry source f
  rw [whole, lineCount_append, count]
  rfl

theorem isLine_summaryLine (s : Summary) : IsLine (plain.summaryLine s) := by
  refine ⟨"— Summary — errors=" ++ toString s.errors ++ " warnings=" ++ toString s.warnings ++
    " fatal=" ++ toString s.fatal ++ " inputs=" ++ toString s.inputs, ?_, rfl⟩
  simp only [lineCount_append, lineCount_toString]
  rfl

/-! ## Listings -/

theorem resultLines_eq {i : InputResult} (exclusive : i.fault = none ∨ i.violations = []) :
    plain.resultLines i = i.findings.map (entry i.source) := by
  unfold resultLines InputResult.findings
  cases fault : i.fault with
  | none =>
    rw [Option.toList_none, List.map_nil, List.nil_append, List.map_map]
    rfl
  | some f =>
    rw [fault] at exclusive
    rw [exclusive.resolve_left nofun]
    rfl

theorem text_eq {report : Report}
    (exclusive : ∀ i ∈ report.results, i.fault = none ∨ i.violations = []) :
    plain.text report = String.join (entries report ++ [plain.summaryLine report.summary]) := by
  have lines : report.results.flatMap plain.resultLines = entries report :=
    List.flatMap_congr fun i mem => resultLines_eq (exclusive i mem)
  rw [text, lines]

theorem length_entries (results : List InputResult) :
    (entries (.ofResults results)).length = (Report.ofResults results).summary.errors +
      (Report.ofResults results).summary.warnings + (Report.ofResults results).summary.fatal := by
  rw [(Report.counted_ofResults results).errors, (Report.counted_ofResults results).warnings,
    (Report.counted_ofResults results).fatal]
  have severities (vs : List Violation) :
      vs.length = vs.countP (·.severity = .error) + vs.countP (·.severity = .warning) := by
    rw [List.length_eq_countP_add_countP (·.severity = .error)]
    congr 2
    funext v
    cases v.severity <;> rfl
  change (results.flatMap _).length = _
  induction results with
  | nil => rfl
  | cons i results ih =>
    have here : i.findings.length = (if i.fault.isSome then 1 else 0) + i.violations.length := by
      rw [InputResult.findings, List.length_append, List.length_map, List.length_map]
      cases i.fault <;> rfl
    rw [List.flatMap_cons, List.length_append, List.length_map, here, ih, List.flatMap_cons,
      List.countP_append, List.countP_append, List.countP_cons, severities i.violations]
    omega

theorem ends_of_mem_entries {report : Report} {text : String} (mem : text ∈ entries report) :
    ∃ line, text = line ++ "\n" := by
  obtain ⟨i, -, among⟩ := List.mem_flatMap.1 mem
  obtain ⟨f, -, rfl⟩ := List.mem_map.1 among
  obtain ⟨line, whole, -⟩ := exists_entry i.source f
  exact ⟨line, whole⟩

theorem lineCount_text_iff {report : Report}
    (exclusive : ∀ i ∈ report.results, i.fault = none ∨ i.violations = []) :
    lineCount (plain.text report) = (entries report).length + 1 ↔
      ∀ i ∈ report.results, ∀ f ∈ i.findings, IsLine (entry i.source f) := by
  obtain ⟨line, -, summary⟩ := isLine_summaryLine report.summary
  have ended : ∀ text ∈ entries report ++ [plain.summaryLine report.summary],
      ∃ line, text = line ++ "\n" := by
    intro text mem
    rcases List.mem_append.1 mem with mem | mem
    · exact ends_of_mem_entries mem
    · exact ⟨line, (List.mem_singleton.1 mem).trans summary⟩
  have length : (entries report ++ [plain.summaryLine report.summary]).length =
      (entries report).length + 1 := List.length_append
  rw [text_eq exclusive, ← length, lineCount_join_eq_iff ended, List.forall_mem_append,
    List.forall_mem_singleton, and_iff_left (isLine_summaryLine report.summary)]
  simp only [entries, List.forall_mem_flatMap, List.forall_mem_map]

end Listing

/-! ## Messages -/

theorem Registry.rules_builtIn : builtIn.rules = [Rule.blockNoEmpty, Rule.colorNoInvalidHex,
    Rule.commentNoEmpty, Rule.noDuplicateProperties, Rule.lengthZeroNoUnit] :=
  rfl

theorem Registry.forall_builtIn_iff {P : Rule → Prop} :
    (∀ rule ∈ builtIn.rules, P rule) ↔ P Rule.blockNoEmpty ∧ P Rule.colorNoInvalidHex ∧
      P Rule.commentNoEmpty ∧ P Rule.noDuplicateProperties ∧ P Rule.lengthZeroNoUnit := by
  rw [rules_builtIn, List.forall_mem_cons, List.forall_mem_cons, List.forall_mem_cons,
    List.forall_mem_cons, List.forall_mem_singleton]

theorem ParseError.lineCount_message (e : ParseError) : lineCount e.message = 0 := by
  rw [message]
  cases e.cause <;> decide

namespace Rule

theorem isAlphanum_of_mem_malformedFrom {offset : Nat} {before : Option Char} {cs : List Char}
    {m : Nat × List Char} (mem : m ∈ malformedFrom offset before cs) :
    ∀ c ∈ m.2, c.isAlphanum = true := by
  fun_induction malformedFrom offset before cs with
  | case1 => cases mem
  | case2 offset before c cs digits more color ih =>
    rcases List.mem_cons.1 mem with rfl | mem
    · exact fun c mem => List.mem_takeWhile_imp mem
    · exact ih mem
  | case3 offset before c cs digits more other ih => exact ih mem

theorem lineCount_of_mem_malformedColors {d : Declaration} {f : Finding}
    (mem : f ∈ malformedColors d) : lineCount f.text = 0 := by
  obtain ⟨w, -, mem⟩ := List.mem_flatMap.1 mem
  obtain ⟨m, found, rfl⟩ := List.mem_map.1 mem
  have digits : lineCount (String.ofList m.2) = 0 := by
    rw [lineCount, String.toList_ofList, List.count_eq_zero]
    exact fun newline => nomatch isAlphanum_of_mem_malformedFrom found _ newline
  rw [lineCount_append, lineCount_append, digits]
  rfl

theorem lineCount_of_builtIn (context : Context) (sheet : Sheet) : ∀ rule ∈ Registry.builtIn.rules,
    ∀ f ∈ (rule.check context sheet).findings, lineCount f.text = 0 ∨
      rule = noDuplicateProperties ∧ ∃ d ∈ sheet.declarations, f = duplicate d := by
  refine Registry.forall_builtIn_iff.2 ⟨?_, ?_, ?_, ?_, ?_⟩ <;> intro f mem
  · obtain ⟨n, -, found⟩ := List.mem_filterMap.1 mem
    unfold emptyBlock? at found
    split at found <;> cases found
    exact .inl (show lineCount "Unexpected empty block" = 0 from rfl)
  · obtain ⟨d, -, found⟩ := List.mem_flatMap.1 mem
    exact .inl (lineCount_of_mem_malformedColors found)
  · obtain ⟨n, -, found⟩ := List.mem_filterMap.1 mem
    unfold emptyComment? at found
    split at found
    · split at found <;> cases found
      exact .inl (show lineCount "Unexpected empty comment" = 0 from rfl)
    · cases found
  · obtain ⟨nodes, container, found⟩ := List.mem_flatMap.1 mem
    obtain ⟨d, among, rfl⟩ := Brace.mem_of_mem_duplicatesAfter found
    exact .inr ⟨rfl, d, Sheet.mem_declarations.2 (Sheet.mem_walk_of_container container among), rfl⟩
  · obtain ⟨d, -, found⟩ := List.mem_flatMap.1 mem
    unfold zeroLengths at found
    split at found
    · cases found
    · obtain ⟨w, -, found⟩ := List.mem_filterMap.1 found
      obtain ⟨offset, -, rfl⟩ := Option.map_eq_some_iff.1 found
      exact .inl (show lineCount "Unexpected unit" = 0 from rfl)

theorem finished_of_builtIn (context : Context) (sheet : Sheet) : ∀ rule ∈ Registry.builtIn.rules,
    (rule.check context sheet).ending = .finished :=
  Registry.forall_builtIn_iff.2 ⟨rfl, rfl, rfl, rfl, rfl⟩

theorem lineCount_name_of_builtIn : ∀ rule ∈ Registry.builtIn.rules, lineCount rule.name = 0 :=
  Registry.forall_builtIn_iff.2 (by decide)

end Rule

/-! ## Properties in indented sheets -/

namespace Indented

theorem lineCount_of_declaration? {content : List Char} {start : Position} {d : Declaration}
    (h : declaration? content start = some d) : lineCount d.prop = 0 := by
  unfold declaration? at h
  split at h
  · cases h
  next before after cut =>
    simp only at h
    split at h
    · cases h
    next solid =>
      cases h
      rw [lineCount, String.toList_ofList, List.count_eq_zero]
      intro newline
      have blank : (Text.trim before).any Text.isBlank = true := List.any_eq_true.2 ⟨'\n', newline, rfl⟩
      simp [blank] at solid

theorem lineCount_prop {text : String} {sheet : Sheet}
    (parsed : Dialect.sugarss.parse text = .ok sheet) :
    ∀ d ∈ sheet.declarations, lineCount d.prop = 0 := by
  intro d mem
  obtain ⟨es, scanned, made⟩ := entries_of_parse parsed
  obtain ⟨e, inner, h⟩ := madeOf_of_nodesOf made (Sheet.mem_declarations.1 mem)
  obtain ⟨line, -, origin⟩ := from_of_mem_entriesOf none _ es scanned e (h.mem e List.mem_cons_self)
  obtain ⟨first, kind, rfl⟩ := h.made
  obtain ⟨lines, after, read⟩ := origin.kind
  rw [kind] at read
  have own : lineCount first.prop = 0 := lineCount_of_declaration? (declaration_of_kindOf read)
  exact own

end Indented

/-! ## Reports on built-in rules -/

def BuiltIn (plan : List PlannedRule) : Prop :=
  ∀ p ∈ plan, p.rule ∈ Registry.builtIn.rules ∧ p.message = none

/-- Whether a violation in an input is on a duplicate property whose name runs over several lines. -/
structure OnBrokenName (input : Input) (v : Violation) : Prop where
  braces : input.dialect ≠ .sugarss
  rule : v.rule = Rule.noDuplicateProperties.name
  property : ∃ text sheet, input.text = .ok text ∧ input.dialect.parse text = .ok sheet ∧
    ∃ d ∈ sheet.declarations, lineCount d.prop ≠ 0 ∧ lineCount v.message = lineCount d.prop ∧
      v.message = "Unexpected duplicate \"" ++ d.prop ++ "\"" ++ " (" ++ v.rule ++ ")"

theorem PlannedRule.exists_finding {p : PlannedRule} (builtIn : p.rule ∈ Registry.builtIn.rules)
    {dialect : Dialect} {sheet : Sheet} {v : Violation} (mem : v ∈ p.violations dialect sheet) :
    ∃ f ∈ (p.outcome dialect sheet).findings, v = p.reportOf f := by
  have finished : (p.outcome dialect sheet).ending = .finished :=
    Rule.finished_of_builtIn _ _ _ builtIn
  rw [violations_eq_reports, reports, finished] at mem
  obtain ⟨f, found, rfl⟩ := List.mem_map.1 mem
  exact ⟨f, found, rfl⟩

theorem onBrokenName_of_mem {plan : List PlannedRule} (builtIn : BuiltIn plan) {input : Input}
    {v : Violation} (mem : v ∈ (Check.checkInput plan input).violations) :
    lineCount v.message = 0 ∨ OnBrokenName input v := by
  unfold Check.checkInput Check.checkText at mem
  split at mem
  · cases mem
  next text read =>
    split at mem
    · cases mem
    next sheet parsed =>
      obtain ⟨p, planned, found⟩ := List.mem_flatMap.1 (List.mem_mergeSort.1 mem)
      obtain ⟨known, own⟩ := builtIn p planned
      obtain ⟨f, finding, rfl⟩ := p.exists_finding known found
      have message : (p.reportOf f).message = f.text ++ " (" ++ p.rule.name ++ ")" := by
        rw [PlannedRule.reportOf, own]
        rfl
      have count : lineCount (p.reportOf f).message = lineCount f.text := by
        rw [message]
        simp only [lineCount_append, Rule.lineCount_name_of_builtIn _ known]
        rfl
      rcases Rule.lineCount_of_builtIn _ _ _ known f finding with inline | ⟨rule, d, declared, rfl⟩
      · exact .inl (count.trans inline)
      · have prop : lineCount (Rule.duplicate d).text = lineCount d.prop := by
          simp only [Rule.duplicate, lineCount_append]
          exact Nat.zero_add (lineCount d.prop)
        by_cases single : lineCount d.prop = 0
        · exact .inl (count.trans (prop.trans single))
        · refine .inr ⟨fun indented => ?_, congrArg Rule.name rule, text, sheet, read, parsed, d,
            declared, single, count.trans prop, message⟩
          rw [indented] at parsed
          exact single (Indented.lineCount_prop parsed d declared)

theorem OnBrokenName.lineCount_ne {input : Input} {v : Violation} (broken : OnBrokenName input v) :
    lineCount v.message ≠ 0 := by
  obtain ⟨-, -, -, -, d, -, several, count, -⟩ := broken.property
  rwa [count]

/-! ## Inputs -/

namespace Request

variable {fs : FileSystem} {r : Request} {inputs : List Input}

theorem expand_of_inputs (expanded : r.inputs fs = .ok inputs) :
    Input.expand fs r.source (r.dialect.map Dialect.name) = .ok inputs := by
  unfold Request.inputs at expanded
  split at expanded
  · cases expanded
  next empty =>
    rw [empty]
    split at expanded
    · split at expanded <;> cases expanded
      rfl
    · exact expanded
  next i is filled => rw [filled, expanded]

theorem eq_of_inputs_code {text : String} {name : Option String} (source : r.source = .code text name)
    (expanded : r.inputs fs = .ok inputs) :
    ∃ d, inputs = [⟨name.getD Input.codeSource, name, d, .ok text⟩] := by
  have expanded := expand_of_inputs expanded
  rw [source, Input.expand] at expanded
  obtain ⟨d, -, rfl⟩ := map_eq_ok_iff.1 expanded
  exact ⟨d, rfl⟩

theorem text_readMatch (fs : FileSystem) (m : Glob.Match) :
    (∃ text, (Input.readMatch fs m).2 = .ok text) ∨
      ∃ message, (Input.readMatch fs m).2 = .error (.unreadable message) := by
  cases m with
  | unreadable path e => exact .inr ⟨_, rfl⟩
  | found path =>
    rw [Input.readMatch]
    cases fs.read path with
    | error e => exact .inr ⟨_, rfl⟩
    | ok text => exact .inl ⟨text, rfl⟩

theorem text_of_mem_inputs (expanded : r.inputs fs = .ok inputs) {input : Input}
    (mem : input ∈ inputs) : (∃ text, input.text = .ok text) ∨ ∃ message, input.text = .error (.unreadable message) := by
  cases source : r.source with
  | code text name =>
    obtain ⟨d, rfl⟩ := eq_of_inputs_code source expanded
    cases List.mem_singleton.1 mem
    exact .inl ⟨text, rfl⟩
  | files patterns =>
    have expanded := expand_of_inputs expanded
    rw [source] at expanded
    cases matched : Input.matchesOf fs patterns with
    | error e =>
      simp only [Input.expand, matched] at expanded
      cases expanded
    | ok found =>
      rw [Input.expand_eq r.dialect matched] at expanded
      cases expanded
      obtain ⟨m, -, rfl⟩ := List.mem_map.1 mem
      exact text_readMatch fs m

end Request

theorem fault_of_checkInput {plan : List PlannedRule} {input : Input} {f : InputFault}
    (faulted : (Check.checkInput plan input).fault = some f) :
    input.text = .error f ∨ ∃ e : ParseError, f = .unparsable e.message e.pos := by
  unfold Check.checkInput Check.checkText at faulted
  split at faulted
  next refused =>
    cases faulted
    exact .inl refused
  next text read =>
    split at faulted
    next e _ =>
      cases faulted
      exact .inr ⟨e, rfl⟩
    · cases faulted

structure Report.SingleLined (report : Report) : Prop where
  names : ∀ i ∈ report.results, lineCount i.source = 0
  failures : ∀ i ∈ report.results, ∀ message, i.fault = some (.unreadable message) →
    lineCount message = 0

theorem singleLined_of_code {fs : FileSystem} {r : Request} {inputs : List Input} {text : String}
    (source : r.source = .code text none) (expanded : r.inputs fs = .ok inputs) :
    (Report.ofResults (inputs.map (Check.checkInput r.plan))).SingleLined := by
  obtain ⟨d, rfl⟩ := Request.eq_of_inputs_code source expanded
  constructor
  · intro i mem
    cases List.mem_singleton.1 mem
    rw [Check.source_checkInput]
    exact (show lineCount "<input>" = 0 from rfl)
  · intro i mem message unreadable
    cases List.mem_singleton.1 mem
    rcases fault_of_checkInput unreadable with refused | ⟨e, same⟩
    · cases refused
    · cases same

theorem isLine_entry_of_mem {plan : List PlannedRule} (builtIn : BuiltIn plan) {input : Input}
    (given : (∃ text, input.text = .ok text) ∨ ∃ message, input.text = .error (.unreadable message))
    (name : lineCount (Check.checkInput plan input).source = 0)
    (failures : ∀ message, (Check.checkInput plan input).fault = some (.unreadable message) →
      lineCount message = 0)
    {f : InputFault ⊕ Violation} (mem : f ∈ (Check.checkInput plan input).findings) :
    IsLine (Listing.entry (Check.checkInput plan input).source f) ↔
      ∀ v, f = .inr v → ¬OnBrokenName input v := by
  rw [Listing.isLine_entry_iff, and_iff_right name]
  rw [InputResult.findings, List.mem_append, List.mem_map, List.mem_map] at mem
  rcases mem with ⟨fault, faulted, rfl⟩ | ⟨v, found, rfl⟩
  · refine iff_of_true ?_ nofun
    rw [Option.mem_toList] at faulted
    cases fault with
    | unreadable message =>
      have label : lineCount "failed to read input: " = 0 := by decide
      have shown : Listing.shown (.inl (.unreadable message)) =
          "failed to read input: " ++ message := rfl
      rw [shown, lineCount_append, label, failures message faulted]
    | unparsable message pos =>
      rcases fault_of_checkInput faulted with refused | ⟨e, same⟩
      · rw [refused] at given
        rcases given with ⟨text, read⟩ | ⟨failure, read⟩
        · cases read
        · cases read
      · cases same
        exact e.lineCount_message
  · constructor
    · rintro single w ⟨⟩ broken
      exact broken.lineCount_ne single
    · exact fun sound => (onBrokenName_of_mem builtIn found).resolve_right (sound v rfl)

/-! ## The listing of a run -/

/-- Whether the listing of a report gives each finding in the inputs an entry of its own, which is one
line unless it is on a broken name and then as many as this name has, and the counts a line at the
end. -/
structure ListsFindings (plan : List PlannedRule) (inputs : List Input) (report : Report) : Prop where
  results : report.results = inputs.map (Check.checkInput plan)
  text : Listing.plain.text report =
    String.join (Listing.entries report ++ [Listing.plain.summaryLine report.summary])
  length : (Listing.entries report).length =
    report.summary.errors + report.summary.warnings + report.summary.fatal
  summary : IsLine (Listing.plain.summaryLine report.summary)
  entry : ∀ input ∈ inputs, ∀ f ∈ (Check.checkInput plan input).findings,
    IsLine (Listing.entry (Check.checkInput plan input).source f) ↔
      ∀ v, f = .inr v → ¬OnBrokenName input v
  count : ∀ input ∈ inputs, ∀ v ∈ (Check.checkInput plan input).violations,
    lineCount (Listing.entry (Check.checkInput plan input).source (.inr v)) = lineCount v.message + 1
  lines : lineCount (Listing.plain.text report) =
      report.summary.errors + report.summary.warnings + report.summary.fatal + 1 ↔
    ∀ input ∈ inputs, ∀ v ∈ (Check.checkInput plan input).violations, ¬OnBrokenName input v

/-- A run on a text without a name, or on files whose names have no newlines, with the built-in rules
and their own messages. -/
theorem listsFindings_of_run {fs : FileSystem} {r : Request} {report : Report}
    (builtIn : BuiltIn r.plan) (run : r.run fs = .ok report)
    (source : (∃ text, r.source = .code text none) ∨ report.SingleLined) :
    ∃ inputs, r.inputs fs = .ok inputs ∧ ListsFindings r.plan inputs report := by
  obtain ⟨inputs, expanded, rfl⟩ := map_eq_ok_iff.1 run
  have single : (Report.ofResults (inputs.map (Check.checkInput r.plan))).SingleLined := by
    rcases source with ⟨text, code⟩ | single
    · exact singleLined_of_code code expanded
    · exact single
  have exclusive : ∀ i ∈ inputs.map (Check.checkInput r.plan), i.fault = none ∨ i.violations = [] := by
    intro i mem
    obtain ⟨input, -, rfl⟩ := List.mem_map.1 mem
    exact (Check.checkInput_ends r.plan input).symm.imp And.left fun faulted => faulted.2.1
  have entry : ∀ input ∈ inputs, ∀ f ∈ (Check.checkInput r.plan input).findings,
      IsLine (Listing.entry (Check.checkInput r.plan input).source f) ↔
        ∀ v, f = .inr v → ¬OnBrokenName input v := by
    intro input mem f
    have among : Check.checkInput r.plan input ∈ inputs.map (Check.checkInput r.plan) :=
      List.mem_map_of_mem mem
    exact isLine_entry_of_mem builtIn (Request.text_of_mem_inputs expanded mem)
      (single.names _ among) (single.failures _ among)
  refine ⟨inputs, expanded, rfl, Listing.text_eq exclusive, Listing.length_entries _,
    Listing.isLine_summaryLine _, entry, ?_, ?_⟩
  · intro input mem v _
    rw [Listing.lineCount_entry, single.names _ (List.mem_map_of_mem mem), Nat.zero_add]
    rfl
  rw [← Listing.length_entries, Listing.lineCount_text_iff exclusive]
  constructor
  · intro lines input mem v found
    have among : Check.checkInput r.plan input ∈ inputs.map (Check.checkInput r.plan) :=
      List.mem_map_of_mem mem
    have finding : .inr v ∈ (Check.checkInput r.plan input).findings :=
      InputResult.inr_mem_findings.2 found
    exact (entry input mem _ finding).1 (lines _ among _ finding) v rfl
  · intro sound
    refine List.forall_mem_map.2 fun input mem f finding => (entry input mem f finding).2 ?_
    rintro v rfl
    exact sound input mem v (InputResult.inr_mem_findings.1 finding)

def brokenName : Request :=
  ⟨.code "a\x7bb\nc:1;b\nc:2\x7d" none, none,
    [⟨Rule.noDuplicateProperties, .bool true, .error, none⟩], false⟩

def brokenNameReport : Report :=
  .ofResults [.checked "<input>" .css [⟨"declaration-block-no-duplicate-properties", ⟨2, 5⟩,
    "Unexpected duplicate \"b\nc\" (declaration-block-no-duplicate-properties)", .error⟩] ⟨.css, 3⟩]

theorem listsFindings_of_brokenName :
    BuiltIn brokenName.plan ∧ brokenName.run .empty = .ok brokenNameReport ∧
      ∃ inputs, brokenName.inputs .empty = .ok inputs ∧
        ListsFindings brokenName.plan inputs brokenNameReport := by
  have builtIn : BuiltIn brokenName.plan := by
    intro p mem
    cases List.mem_singleton.1 mem
    exact ⟨by simp [Registry.rules_builtIn], rfl⟩
  have run : brokenName.run .empty = .ok brokenNameReport := by decide +kernel
  exact ⟨builtIn, run, listsFindings_of_run builtIn run (.inl ⟨_, rfl⟩)⟩

theorem lineCount_of_brokenName :
    ∃ output, lint .builtIn .empty
        { Options.ofConfig ⟨[("declaration-block-no-duplicate-properties", .bool true)], none⟩ with
          code := some "a\x7bb\nc:1;b\nc:2\x7d"
          formatter := some (.listing .plain) } = .ok ⟨output, brokenNameReport⟩ ∧
      lineCount output = 3 ∧ brokenNameReport.summary = ⟨1, 0, 0, 1⟩ := by
  refine ⟨"✖ ⟦error⟧ <input>:2:5 — Unexpected duplicate \"b\nc\" " ++
    "(declaration-block-no-duplicate-properties)\n— Summary — errors=1 warnings=0 fatal=0 inputs=1\n",
    ?_, ?_, rfl⟩
  · decide +kernel
  · decide +kernel

end SheetLint
