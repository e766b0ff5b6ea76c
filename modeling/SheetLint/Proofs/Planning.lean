import Mathlib.Data.List.Forall2
import SheetLint.Plan
import SheetLint.Proofs.Entries
import SheetLint.Proofs.Except

namespace SheetLint

/-! ## What a setting says -/

namespace Setting

def isOff : Json → Bool
  | .null | .bool false => true
  | .array [.null, .object _] | .array [.bool false, .object _] => true
  | _ => false

def primaryOf : Json → Json
  | .array [primary, .object _] => primary
  | value => value

def secondaryOf : Json → List (String × Json)
  | .array [_, .object members] => members
  | _ => []

/-- The severity that a setting gives, if it does. Of several members with one name the last counts. -/
def severityOf (value : Json) : Option Severity :=
  (Entries.get? (secondaryOf value).reverse "severity").bind fun j => (Decode.severity j).toOption

def messageOf (value : Json) : Option String :=
  (Entries.get? (secondaryOf value).reverse "message").bind fun j => (Decode.string j).toOption

end Setting

/-- Whether a rule is planned as an entry of a configuration says. -/
structure Planned (registry : Registry) (default : Option Severity) (entry : String × Json)
    (p : PlannedRule) : Prop where
  rule : registry.get? entry.1 = some p.rule
  name : p.rule.name = entry.1
  primary : p.primary = Setting.primaryOf entry.2
  severity : p.severity = ((Setting.severityOf entry.2).or default).getD .error
  message : p.message = Setting.messageOf entry.2

theorem Planned.unique {registry : Registry} {default : Option Severity} {entry : String × Json}
    {p q : PlannedRule} (h : Planned registry default entry p) (h' : Planned registry default entry q) :
    p = q := by
  have rule : p.rule = q.rule := Option.some.inj (h.rule.symm.trans h'.rule)
  have primary : p.primary = q.primary := h.primary.trans h'.primary.symm
  have severity : p.severity = q.severity := h.severity.trans h'.severity.symm
  have message : p.message = q.message := h.message.trans h'.message.symm
  cases p
  cases q
  simp_all only

/-! ## Reading a setting -/

namespace Setting

theorem eq_of_optional {α : Type} {decode : Json → Except DecodeError α} {j : Json} {o : Option α}
    (null : ∃ e, decode .null = .error e) (read : Decode.optional decode j = .ok o) :
    o = (decode j).toOption := by
  unfold Decode.optional at read
  split at read
  · obtain ⟨e, null⟩ := null
    cases read
    rw [null]
    rfl
  · obtain ⟨a, decoded, rfl⟩ := map_eq_ok_iff.1 read
    rw [decoded]
    rfl

theorem eq_of_decodeSecondary {s r : Secondary} {members : List (String × Json)}
    (read : decodeSecondary s members = .ok r) :
    r.severity = (Entries.get? members.reverse "severity").elim s.severity
        (fun j => (Decode.severity j).toOption) ∧
      r.message = (Entries.get? members.reverse "message").elim s.message
        (fun j => (Decode.string j).toOption) := by
  induction members generalizing s with
  | nil =>
    cases read
    exact ⟨rfl, rfl⟩
  | cons m members ih =>
    obtain ⟨name, value⟩ := m
    rw [List.reverse_cons, Entries.get?_append, Entries.get?_append]
    rw [decodeSecondary] at read
    split_ifs at read with severe told
    · split at read
      · cases read
      next severity decoded =>
        obtain ⟨first, second⟩ := ih read
        have own : severity = (Decode.severity value).toOption := eq_of_optional ⟨_, rfl⟩ decoded
        rw [first, second, own, severe]
        cases Entries.get? members.reverse "severity" <;>
          cases Entries.get? members.reverse "message" <;> exact ⟨rfl, rfl⟩
    · split at read
      · cases read
      next message decoded =>
        obtain ⟨first, second⟩ := ih read
        have own : message = (Decode.string value).toOption := eq_of_optional ⟨_, rfl⟩ decoded
        rw [first, second, own, told]
        cases Entries.get? members.reverse "severity" <;>
          cases Entries.get? members.reverse "message" <;> exact ⟨rfl, rfl⟩
    · have absent (other : String) (ne : name ≠ other) :
          Entries.get? [(name, value)] other = none := by
        simp [Entries.get?, ne]
      rw [absent "severity" severe, absent "message" told, Option.or_none, Option.or_none]
      exact ih read

theorem isOff_pair (primary : Json) (members : List (String × Json)) :
    isOff (.array [primary, .object members]) = turnsOff primary := by
  cases primary with
  | bool b => cases b <;> rfl
  | _ => rfl

theorem alone_of_not_pair {value : Json}
    (other : ∀ primary members, value = .array [primary, .object members] → False) :
    isOff value = turnsOff value ∧ primaryOf value = value ∧ secondaryOf value = [] := by
  refine ⟨?_, ?_, ?_⟩
  · unfold isOff turnsOff
    split <;> simp_all
  · unfold primaryOf
    split
    next primary members => exact (other primary members rfl).elim
    next => rfl
  · unfold secondaryOf
    split
    next primary members => exact (other primary members rfl).elim
    next => rfl

theorem eq_of_ofJson {value : Json} {s : Setting} (read : ofJson value = .ok s) :
    s = if isOff value then .off else .on (primaryOf value) (severityOf value) (messageOf value) := by
  unfold ofJson at read
  split at read
  next primary members =>
    rw [isOff_pair]
    split at read
    next off =>
      cases read
      rw [if_pos off]
    next on =>
      split at read
      · cases read
      next r decoded =>
        cases read
        obtain ⟨severity, message⟩ := eq_of_decodeSecondary decoded
        rw [if_neg on, severity, message]
        simp only [primaryOf, severityOf, messageOf, secondaryOf]
        cases Entries.get? members.reverse "severity" <;>
          cases Entries.get? members.reverse "message" <;> rfl
  next other =>
    obtain ⟨off, primary, secondary⟩ := alone_of_not_pair other
    rw [off, primary, severityOf, messageOf, secondary]
    split at read
    next off => cases read; rw [if_pos off]
    next on => cases read; rw [if_neg on]; rfl

end Setting

/-! ## Planning one entry after the other -/

namespace Plan

variable {registry : Registry} {default : Severity} {entries : Entries Json}

def ofEntry (registry : Registry) (default : Severity) (entry : String × Json) :
    Except RequestError (Option PlannedRule) :=
  ((Setting.ofJson entry.2).mapError fun e => .invalidRuleSetting entry.1 e.message).bind
    (ofSetting registry default entry.1)

def planned? (registry : Registry) (default : Severity) (entry : String × Json) :
    Option PlannedRule :=
  (ofEntry registry default entry).toOption.join

theorem ofSettings_eq_ok_iff {plan : List PlannedRule} :
    (settings entries).bind (ofSettings registry default) = .ok plan ↔
      (∀ entry ∈ entries, ∃ o, ofEntry registry default entry = .ok o) ∧
        plan = entries.filterMap (planned? registry default) := by
  induction entries generalizing plan with
  | nil => simp [settings, Except.bind, ofSettings, eq_comm]
  | cons entry entries ih =>
    obtain ⟨name, value⟩ := entry
    have step : (settings ((name, value) :: entries)).bind (ofSettings registry default) = .ok plan ↔
        ∃ o more, ofEntry registry default (name, value) = .ok o ∧
          (settings entries).bind (ofSettings registry default) = .ok more ∧
          o.toList ++ more = plan := by
      rw [settings, ofEntry]
      cases Setting.ofJson value with
      | error e => simp [mapError_error, Except.bind]
      | ok s =>
        simp only [mapError_ok, map_bind, ofSettings]
        cases settings entries with
        | error e => simp [Except.bind]
        | ok all =>
          cases here : ofSetting registry default name s with
          | error e => simp [Except.bind, here]
          | ok o => simp [Except.bind, here, map_eq_ok_iff]
    rw [step, List.forall_mem_cons, List.filterMap_cons]
    constructor
    · rintro ⟨o, more, here, later, rfl⟩
      obtain ⟨passes, rfl⟩ := ih.1 later
      refine ⟨⟨⟨o, here⟩, passes⟩, ?_⟩
      rw [planned?, here]
      cases o <;> rfl
    · rintro ⟨⟨⟨o, here⟩, passes⟩, rfl⟩
      refine ⟨o, _, here, ih.2 ⟨passes, rfl⟩, ?_⟩
      rw [planned?, here]
      cases o <;> rfl

theorem ofConfig_eq_ok_iff {config : Config} {plan : List PlannedRule} :
    ofConfig registry config = .ok plan ↔
      (∀ entry ∈ config.rules, ∃ o,
        ofEntry registry (config.defaultSeverity.getD .error) entry = .ok o) ∧
        plan = config.rules.filterMap (planned? registry (config.defaultSeverity.getD .error)) := by
  rw [← ofSettings_eq_ok_iff, ofConfig]
  cases settings config.rules <;> rfl

theorem name_of_get? {name : String} {rule : Rule} (known : registry.get? name = some rule) :
    rule.name = name := by
  have found := List.find?_some known
  simpa using found

theorem planned_of_ofEntry {severity : Option Severity} {entry : String × Json}
    {o : Option PlannedRule} (passes : ofEntry registry (severity.getD .error) entry = .ok o) :
    if Setting.isOff entry.2 then o = none else ∃ p, o = some p ∧ Planned registry severity entry p := by
  obtain ⟨s, read, here⟩ := bind_eq_ok_iff.1 passes
  have meaning : Setting.ofJson entry.2 = .ok s := by
    cases well : Setting.ofJson entry.2 with
    | error e =>
      rw [well] at read
      cases read
    | ok s' =>
      rw [well] at read
      cases read
      rfl
  rw [Setting.eq_of_ofJson meaning, ofSetting] at here
  split at here
  · cases here
  next rule known =>
    split_ifs at here ⊢ with off
    · cases here
      rfl
    · simp only at here
      split at here
      · cases here
      · cases here
        refine ⟨_, rfl, known, name_of_get? known, rfl, ?_, rfl⟩
        cases Setting.severityOf entry.2 <;> rfl

section Selection

variable {severity : Option Severity}

theorem planned?_of_isOff {entry : String × Json}
    (passes : ∃ o, ofEntry registry (severity.getD .error) entry = .ok o)
    (off : Setting.isOff entry.2 = true) : planned? registry (severity.getD .error) entry = none := by
  obtain ⟨o, passes⟩ := passes
  have plans := planned_of_ofEntry passes
  rw [if_pos off] at plans
  rw [planned?, passes, plans]
  rfl

theorem exists_planned {entry : String × Json}
    (passes : ∃ o, ofEntry registry (severity.getD .error) entry = .ok o)
    (on : Setting.isOff entry.2 = false) :
    ∃ p, planned? registry (severity.getD .error) entry = some p ∧ Planned registry severity entry p := by
  obtain ⟨o, passes⟩ := passes
  have plans := planned_of_ofEntry passes
  rw [on, if_neg Bool.false_ne_true] at plans
  obtain ⟨p, rfl, planned⟩ := plans
  refine ⟨p, ?_, planned⟩
  rw [planned?, passes]
  rfl

theorem forall₂_planned
    (passes : ∀ entry ∈ entries, ∃ o, ofEntry registry (severity.getD .error) entry = .ok o) :
    List.Forall₂ (Planned registry severity) (entries.filter (!Setting.isOff ·.2))
      (entries.filterMap (planned? registry (severity.getD .error))) := by
  induction entries with
  | nil => exact .nil
  | cons entry entries ih =>
    rw [List.forall_mem_cons] at passes
    have later := ih passes.2
    cases state : Setting.isOff entry.2 with
    | true =>
      rw [List.filter_cons_of_neg (by simp [state]),
        List.filterMap_cons_none (planned?_of_isOff passes.1 state)]
      exact later
    | false =>
      obtain ⟨p, here, planned⟩ := exists_planned passes.1 state
      rw [List.filter_cons_of_pos (by simp [state]), List.filterMap_cons_some here]
      exact .cons planned later

theorem filterMap_planned?_filter
    (passes : ∀ entry ∈ entries, ∃ o, ofEntry registry (severity.getD .error) entry = .ok o) :
    (entries.filter (!Setting.isOff ·.2)).filterMap (planned? registry (severity.getD .error)) =
      entries.filterMap (planned? registry (severity.getD .error)) := by
  rw [List.filterMap_filter]
  apply List.filterMap_congr
  intro entry mem
  cases state : Setting.isOff entry.2 with
  | true => simp [planned?_of_isOff (passes entry mem) state]
  | false => simp

end Selection

/-- The entries that are not turned off are planned one by one in their order. With entries left out that
are turned off the plan is the same, and with the entries in another order it is made of the same rules,
again in the order of their entries. -/
theorem ofConfig_selects {config : Config} {plan : List PlannedRule}
    (made : ofConfig registry config = .ok plan) :
    List.Forall₂ (Planned registry config.defaultSeverity) (config.rules.filter (!Setting.isOff ·.2))
      plan ∧
    (∀ rules, rules.Sublist config.rules →
      rules.filter (!Setting.isOff ·.2) = config.rules.filter (!Setting.isOff ·.2) →
      ofConfig registry { config with rules } = .ok plan) ∧
    ∀ rules, rules.Perm config.rules → ∃ moved, ofConfig registry { config with rules } = .ok moved ∧
      moved.Perm plan ∧
      List.Forall₂ (Planned registry config.defaultSeverity) (rules.filter (!Setting.isOff ·.2))
        moved := by
  obtain ⟨passes, rfl⟩ := ofConfig_eq_ok_iff.1 made
  refine ⟨forall₂_planned passes, ?_, ?_⟩
  · intro rules part same
    have passes' : ∀ entry ∈ rules, ∃ o,
        ofEntry registry (config.defaultSeverity.getD .error) entry = .ok o :=
      fun entry mem => passes entry (part.subset mem)
    apply ofConfig_eq_ok_iff.2
    refine ⟨passes', ?_⟩
    rw [← filterMap_planned?_filter passes, ← same, filterMap_planned?_filter passes']
  · intro rules moved
    have passes' : ∀ entry ∈ rules, ∃ o,
        ofEntry registry (config.defaultSeverity.getD .error) entry = .ok o :=
      fun entry mem => passes entry (moved.subset mem)
    exact ⟨_, ofConfig_eq_ok_iff.2 ⟨passes', rfl⟩, moved.filterMap _, forall₂_planned passes'⟩

def threeEntries : Config :=
  ⟨[("comment-no-empty", .bool true), ("color-no-invalid-hex", .array [.bool false, .object []]),
    ("block-no-empty", .array [.bool true, .object [("severity", .string "error")]])], some .warning⟩

theorem ofConfig_selects_two :
    ofConfig .builtIn threeEntries = .ok [⟨Rule.commentNoEmpty, .bool true, .warning, none⟩,
      ⟨Rule.blockNoEmpty, .bool true, .error, none⟩] ∧
    List.Forall₂ (Planned .builtIn (some .warning))
      [("comment-no-empty", .bool true),
        ("block-no-empty", .array [.bool true, .object [("severity", .string "error")]])]
      [⟨Rule.commentNoEmpty, .bool true, .warning, none⟩,
        ⟨Rule.blockNoEmpty, .bool true, .error, none⟩] ∧
    ofConfig .builtIn { threeEntries with rules := threeEntries.rules.eraseIdx 1 } =
      .ok [⟨Rule.commentNoEmpty, .bool true, .warning, none⟩,
        ⟨Rule.blockNoEmpty, .bool true, .error, none⟩] := by
  have made : ofConfig .builtIn threeEntries =
      .ok [⟨Rule.commentNoEmpty, .bool true, .warning, none⟩,
        ⟨Rule.blockNoEmpty, .bool true, .error, none⟩] := by rfl
  obtain ⟨planned, others, -⟩ := ofConfig_selects made
  exact ⟨made, planned, others _ (List.eraseIdx_sublist _ 1) rfl⟩

end Plan

end SheetLint
