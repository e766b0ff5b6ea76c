import Mathlib.Algebra.Group.Nat.Defs
import SheetLint.Formatter
import SheetLint.Proofs.Batch
import SheetLint.Proofs.Json.RoundTrip

namespace SheetLint

namespace Json

/-! ## Reading by name -/

def member? (name : String) : Json → Option Json
  | .object members => Entries.get? members name
  | _ => none

def string? : Json → Option String
  | .string s => some s
  | _ => none

def bool? : Json → Option Bool
  | .bool b => some b
  | _ => none

def nat? : Json → Option Nat
  | .number (.integer n) => n.toNat?
  | _ => none

def items? : Json → Option (List Json)
  | .array items => some items
  | _ => none

end Json

def Violation.ofJson? (j : Json) : Option Violation := do
  let rule ← (← j.member? "rule").string?
  let line ← (← j.member? "line").nat?
  let column ← (← j.member? "column").nat?
  let message ← (← j.member? "message").string?
  let severity ← Severity.ofName? (← (← j.member? "severity").string?)
  return ⟨rule, ⟨line, column⟩, message, severity⟩

def InputFault.ofJson? (j : Json) : Option InputFault := do
  let kind ← (← j.member? "kind").string?
  let message ← (← j.member? "message").string?
  if kind = "io" then return .unreadable message
  guard (kind = "parse")
  let line ← (← j.member? "line").nat?
  let column ← (← j.member? "column").nat?
  return .unparsable message ⟨line, column⟩

def InputResult.ofJson? (j : Json) : Option InputResult := do
  let source ← (← j.member? "source").string?
  let dialect ← Dialect.ofName? (← (← j.member? "dialect").string?)
  let violations ← (← (← j.member? "violations").items?).mapM Violation.ofJson?
  let fault ←
    match j.member? "error" with
    | none => pure none
    | some e => (InputFault.ofJson? e).map some
  return ⟨source, dialect, violations, fault, none⟩

def Summary.ofJson? (j : Json) : Option Summary := do
  let errors ← (← j.member? "errors").nat?
  let warnings ← (← j.member? "warnings").nat?
  let fatal ← (← j.member? "fatal").nat?
  let inputs ← (← j.member? "inputs").nat?
  return ⟨errors, warnings, fatal, inputs⟩

def Report.ofJson? (j : Json) : Option Report := do
  let results ← (← (← j.member? "results").items?).mapM InputResult.ofJson?
  let errored ← (← j.member? "errored").bool?
  let summary ← Summary.ofJson? (← j.member? "summary")
  return ⟨results, errored, summary⟩

/-! ## Decoding what was encoded -/

theorem mapM_map_eq_some {α β γ : Type} {f : α → β} {g : β → Option γ} {h : α → γ}
    (decoded : ∀ a, g (f a) = some (h a)) (as : List α) : (as.map f).mapM g = some (as.map h) := by
  have pure' : g ∘ f = fun a => pure (h a) := funext decoded
  rw [List.mapM_map, pure', List.mapM_pure]
  rfl

theorem Severity.ofName?_name (s : Severity) : ofName? s.name = some s := by
  cases s <;> rfl

theorem Json.nat?_ofNat (n : Nat) : (ofNat n).nat? = some n := rfl

theorem Violation.ofJson?_toJson (v : Violation) : ofJson? v.toJson = some v := by
  simp [ofJson?, toJson, Json.member?, Entries.get?, Json.string?, Json.nat?_ofNat,
    Severity.ofName?_name]

theorem InputFault.ofJson?_toJson (f : InputFault) : ofJson? f.toJson = some f := by
  cases f <;> simp [ofJson?, toJson, Json.member?, Entries.get?, Json.string?, Json.nat?_ofNat]

theorem Summary.ofJson?_toJson (s : Summary) : ofJson? s.toJson = some s := by
  simp [ofJson?, toJson, Json.member?, Entries.get?, Json.nat?_ofNat]

def InputResult.withoutArtifact (r : InputResult) : InputResult :=
  { r with artifact := none }

def Report.withoutArtifacts (r : Report) : Report :=
  { r with results := r.results.map InputResult.withoutArtifact }

theorem InputResult.ofJson?_toJson (r : InputResult) : ofJson? r.toJson = some r.withoutArtifact := by
  have violations : (r.violations.map Violation.toJson).mapM Violation.ofJson? = some r.violations := by
    rw [mapM_map_eq_some (h := id) Violation.ofJson?_toJson, List.map_id]
  cases fault : r.fault <;>
    simp [ofJson?, toJson, Json.member?, Entries.get?, Json.string?, Json.items?, fault, violations,
      Dialect.ofName?_name, InputFault.ofJson?_toJson, withoutArtifact]

theorem Report.ofJson?_toJson (r : Report) : ofJson? r.toJson = some r.withoutArtifacts := by
  have results := mapM_map_eq_some InputResult.ofJson?_toJson r.results
  simp [ofJson?, toJson, Json.member?, Entries.get?, Json.items?, Json.bool?, results,
    Summary.ofJson?_toJson, withoutArtifacts]

theorem Report.toJson_withoutArtifacts (r : Report) : r.withoutArtifacts.toJson = r.toJson := by
  rw [toJson, withoutArtifacts, List.map_map]
  rfl

theorem InputResult.member?_error_eq_none_iff (r : InputResult) :
    r.toJson.member? "error" = none ↔ r.fault = none := by
  cases fault : r.fault <;> simp [toJson, Json.member?, Entries.get?, fault]

/-! ## Reading what was printed -/

def Position.Fits (p : Position) : Prop :=
  p.line < 2 ^ 64 ∧ p.column < 2 ^ 64

def InputFault.Fits : InputFault → Prop
  | unreadable _ => True
  | unparsable _ pos => pos.Fits

/-- Whether all lines, columns and counts of a report fit 64 bits, the range in which machines count. -/
structure Report.Fits (r : Report) : Prop where
  violations : ∀ i ∈ r.results, ∀ v ∈ i.violations, v.pos.Fits
  faults : ∀ i ∈ r.results, ∀ f ∈ i.fault, f.Fits
  errors : r.summary.errors < 2 ^ 64
  warnings : r.summary.warnings < 2 ^ 64
  fatal : r.summary.fatal < 2 ^ 64
  inputs : r.summary.inputs < 2 ^ 64

theorem Report.Fits.withoutArtifacts {r : Report} (fits : r.Fits) : r.withoutArtifacts.Fits where
  violations := List.forall_mem_map.2 fits.violations
  faults := List.forall_mem_map.2 fits.faults
  errors := fits.errors
  warnings := fits.warnings
  fatal := fits.fatal
  inputs := fits.inputs

namespace Json.Readable

variable {depth : Nat}

theorem ofNat {n : Nat} (fits : n < 2 ^ 64) : Readable depth (.ofNat n) :=
  .integer (by simp [fitsBits]; omega)

theorem violation {v : Violation} (fits : v.pos.Fits) : Readable (depth + 2) v.toJson := by
  refine .object (by simp) ?_
  simp only [List.forall_mem_cons]
  exact ⟨.string _, .ofNat fits.1, .ofNat fits.2, .string _, .string _, fun _ mem => nomatch mem⟩

theorem fault {f : InputFault} (fits : f.Fits) : Readable (depth + 2) f.toJson := by
  cases f with
  | unreadable message =>
    refine .object (by simp) ?_
    simp only [List.forall_mem_cons]
    exact ⟨.string _, .string _, fun _ mem => nomatch mem⟩
  | unparsable message pos =>
    refine .object (by simp) ?_
    simp only [List.forall_mem_cons]
    exact ⟨.string _, .ofNat fits.1, .ofNat fits.2, .string _, fun _ mem => nomatch mem⟩

theorem result {i : InputResult} (violations : ∀ v ∈ i.violations, v.pos.Fits)
    (faults : ∀ f ∈ i.fault, f.Fits) : Readable (depth + 4) i.toJson := by
  have array : Readable (depth + 3) (.array (i.violations.map Violation.toJson)) := by
    refine .array fun j mem => ?_
    obtain ⟨v, v_mem, rfl⟩ := List.mem_map.1 mem
    exact violation (violations v v_mem)
  refine .object ?_ ?_
  · cases i.fault <;> simp
  · simp only [List.cons_append, List.nil_append, List.forall_mem_cons]
    refine ⟨.string _, .string _, array, fun m mem => ?_⟩
    obtain ⟨f, f_mem, rfl⟩ := Option.map_eq_some_iff.1 (Option.mem_toList.1 mem)
    exact fault (faults f f_mem)

theorem summary {r : Report} (fits : r.Fits) : Readable (depth + 2) r.summary.toJson := by
  refine .object (by simp) ?_
  simp only [List.forall_mem_cons]
  exact ⟨.ofNat fits.errors, .ofNat fits.warnings, .ofNat fits.fatal, .ofNat fits.inputs,
    fun _ mem => nomatch mem⟩

theorem report {r : Report} (fits : r.Fits) : Readable (depth + 6) r.toJson := by
  have array : Readable (depth + 5) (.array (r.results.map InputResult.toJson)) := by
    refine .array fun j mem => ?_
    obtain ⟨i, i_mem, rfl⟩ := List.mem_map.1 mem
    exact result (fits.violations i i_mem) (fits.faults i i_mem)
  refine .object (by simp) ?_
  simp only [List.forall_mem_cons]
  exact ⟨array, .bool _, summary fits, fun _ mem => nomatch mem⟩

end Json.Readable

theorem Report.ofText?_toJson {r : Report} (fits : r.Fits) :
    Json.ofText? (String.ofList r.toJson.pretty) = some r.toJson :=
  Json.ofText?_pretty (@Json.Readable.report 122 r fits)

/-- The text of a report is read as a value in which each result names a fault exactly if it has one,
and which gives the report back but for the artifacts. Another report has this text exactly if it
differs in nothing else. -/
theorem Report.json_determines {r : Report} (fits : r.Fits) :
    ∃ text, Formatter.json r = .ok text ∧
      (∃ j items, Json.ofText? text = some j ∧ ofJson? j = some r.withoutArtifacts ∧
        (j.member? "results").bind Json.items? = some items ∧
        List.Forall₂ (fun item i => item.member? "error" = none ↔ InputResult.fault i = none)
          items r.results) ∧
      ∀ s : Report, s.Fits →
        (Formatter.json s = .ok text ↔ s.withoutArtifacts = r.withoutArtifacts) := by
  refine ⟨_, rfl, ⟨r.toJson, r.results.map InputResult.toJson, ofText?_toJson fits, r.ofJson?_toJson,
    rfl, ?_⟩, fun s fits' => ⟨fun same => ?_, fun same => ?_⟩⟩
  · rw [List.forall₂_map_left_iff, List.forall₂_same]
    exact fun i _ => i.member?_error_eq_none_iff
  · have read := ofText?_toJson fits'
    rw [Except.ok.inj same, ofText?_toJson fits] at read
    rw [← Option.some_inj, ← ofJson?_toJson, ← ofJson?_toJson, Option.some.inj read]
  · rw [Formatter.json, ← s.toJson_withoutArtifacts, same, r.toJson_withoutArtifacts]

def Report.mixed : Report :=
  ofResults [
    .checked "a\\b.scss" .scss [⟨"no-\"é\"", ⟨1, 2⟩, "first\n\x01second", .warning⟩] ⟨.scss, 3⟩,
    .failed "✖.less" .less (.unparsable "Unclosed block" ⟨3, 4⟩),
    .failed "c.css" .css (.unreadable "\x7fgone\t")]

theorem Report.json_determines_mixed :
    mixed.Fits ∧ mixed.withoutArtifacts.Fits ∧ mixed.withoutArtifacts ≠ mixed ∧
      ∃ text, Formatter.json mixed = .ok text ∧
        (Json.ofText? text).bind ofJson? = some mixed.withoutArtifacts ∧
        Formatter.json mixed.withoutArtifacts = .ok text := by
  have fits : mixed.Fits := by
    constructor <;> simp [mixed, ofResults, summarize, count, InputResult.count, InputResult.checked,
      InputResult.failed, InputFault.Fits, Position.Fits]
  obtain ⟨text, printed, ⟨j, items, read, decoded, -⟩, same⟩ := json_determines fits
  refine ⟨fits, fits.withoutArtifacts, by decide, text, printed, ?_,
    (same _ fits.withoutArtifacts).2 rfl⟩
  rw [read]
  exact decoded

end SheetLint
