import Mathlib.Data.List.Nodup
import SheetLint.Check
import SheetLint.Proofs.Source

namespace SheetLint

namespace Position

theorem le_iff {p q : Position} : p.le q = true ↔ p = q ∨ p.Before q := by
  cases p
  cases q
  simp only [le, Before, Bool.or_eq_true, Bool.and_eq_true, decide_eq_true_eq, beq_iff_eq, mk.injEq]
  omega

theorem le_trans (p q r : Position) (h : p.le q = true) (h' : q.le r = true) : p.le r = true := by
  rw [le_iff] at *
  rcases h with rfl | h
  · exact h'
  · rcases h' with rfl | h'
    · exact .inr h
    · exact .inr (h.trans h')

theorem le_total (p q : Position) : (p.le q || q.le p) = true := by
  simp only [le, Bool.or_eq_true, Bool.and_eq_true, decide_eq_true_eq, beq_iff_eq]
  omega

end Position

/-! ## Stable sorting -/

section Stable

variable {α : Type} {le : α → α → Bool}

theorem mergeSort_cons_eq (trans : ∀ a b c, le a b → le b c → le a c)
    (total : ∀ a b, le a b || le b a) (a : α) (l : List α) :
    (a :: l).mergeSort le =
      (l.mergeSort le).filter (fun b => !le a b) ++ a :: (l.mergeSort le).filter (le a) := by
  obtain ⟨first, last, whole, split, later⟩ := List.mergeSort_cons trans total a l
  have sorted := List.pairwise_mergeSort trans total (a :: l)
  rw [whole, List.pairwise_append, List.pairwise_cons] at sorted
  have earlier : ∀ b ∈ last, le a b = true := sorted.2.1.1
  have here : first.filter (fun b => !le a b) = first := List.filter_eq_self.2 later
  have gone : last.filter (fun b => !le a b) = [] := by
    rw [List.filter_eq_nil_iff]
    intro b mem
    simp [earlier b mem]
  have gone' : first.filter (le a) = [] := by
    rw [List.filter_eq_nil_iff]
    intro b mem
    simpa using later b mem
  have here' : last.filter (le a) = last := List.filter_eq_self.2 earlier
  rw [whole, split, List.filter_append, List.filter_append, here, gone, gone', here',
    List.append_nil, List.nil_append]

theorem filter_mergeSort (trans : ∀ a b c, le a b → le b c → le a c)
    (total : ∀ a b, le a b || le b a) (p : α → Bool) (l : List α) :
    (l.mergeSort le).filter p = (l.filter p).mergeSort le := by
  induction l with
  | nil => simp
  | cons a l ih =>
    -- What is smaller than `a` comes before it, in the sorted list as in the sorted rest of it.
    by_cases kept : p a = true
    · rw [mergeSort_cons_eq trans total, List.filter_append, List.filter_cons_of_pos kept,
        List.filter_cons_of_pos kept, mergeSort_cons_eq trans total, ← ih]
      simp only [List.filter_filter, Bool.and_comm]
    · obtain ⟨first, last, whole, split, -⟩ := List.mergeSort_cons trans total a l
      rw [whole, List.filter_append, List.filter_cons_of_neg kept, List.filter_cons_of_neg kept,
        ← List.filter_append, ← split, ih]

end Stable

namespace Check

theorem inOrder_trans (u v w : Violation) : inOrder u v → inOrder v w → inOrder u w :=
  Position.le_trans u.pos v.pos w.pos

theorem inOrder_total (v w : Violation) : inOrder v w || inOrder w v :=
  Position.le_total v.pos w.pos

theorem filter_pos_mergeSort (pos : Position) (l : List Violation) :
    (l.mergeSort inOrder).filter (·.pos = pos) = l.filter (·.pos = pos) := by
  rw [filter_mergeSort inOrder_trans inOrder_total]
  apply List.mergeSort_of_pairwise
  rw [List.pairwise_filter]
  apply List.pairwise_of_forall
  intro v w hv hw
  rw [decide_eq_true_eq] at hv hw
  rw [inOrder, Position.le_iff, hv, hw]
  exact .inl rfl

end Check

/-! ## The reports of one rule -/

namespace PlannedRule

variable (p : PlannedRule) (dialect : Dialect) (sheet : Sheet)

def outcome : Rule.Outcome :=
  p.rule.check ⟨p.primary, dialect⟩ sheet

def reportOf (f : Finding) : Violation :=
  ⟨p.rule.name, f.pos, p.message.getD f.text ++ " (" ++ p.rule.name ++ ")", p.severity⟩

/-- The one report on a rule that fails or crashes. It has the severity and the words of an error,
whatever is planned for the rule. -/
def internalError (detail : String) : Violation :=
  ⟨p.rule.name, ⟨1, 1⟩, "Internal error in rule \"" ++ p.rule.name ++ "\": " ++ detail, .error⟩

def reports : List Violation :=
  match (p.outcome dialect sheet).ending with
  | .finished => (p.outcome dialect sheet).findings.map p.reportOf
  | .failed reason => [p.internalError reason]
  | .crashed message => [p.internalError (message.getD "rule panicked")]

theorem violations_eq_reports : p.violations dialect sheet = p.reports dialect sheet := by
  unfold violations reports outcome
  cases ended : (p.rule.check ⟨p.primary, dialect⟩ sheet).ending <;>
    simp only [ended, Rule.Ending.fault?] <;> rfl

theorem rule_of_mem_reports {v : Violation} (mem : v ∈ p.reports dialect sheet) :
    v.rule = p.rule.name := by
  unfold reports at mem
  split at mem
  · obtain ⟨f, -, rfl⟩ := List.mem_map.1 mem
    rfl
  · cases List.mem_singleton.1 mem
    rfl
  · cases List.mem_singleton.1 mem
    rfl

end PlannedRule

namespace Check

variable {plan : List PlannedRule} {dialect : Dialect} {sheet : Sheet}

theorem violations_eq_mergeSort_reports : violations plan dialect sheet =
    (plan.flatMap (·.reports dialect sheet)).mergeSort inOrder := by
  simp only [violations, PlannedRule.violations_eq_reports]

theorem filter_rule_of_not_mem {name : String} (absent : name ∉ plan.map (·.rule.name)) :
    (plan.flatMap (·.reports dialect sheet)).filter (·.rule = name) = [] := by
  rw [List.filter_eq_nil_iff]
  intro v mem same
  obtain ⟨p, planned, mem⟩ := List.mem_flatMap.1 mem
  apply absent
  rw [← of_decide_eq_true same, p.rule_of_mem_reports dialect sheet mem]
  exact List.mem_map_of_mem planned

theorem filter_rule_flatMap (distinct : (plan.map (·.rule.name)).Nodup) {p : PlannedRule}
    (planned : p ∈ plan) :
    (plan.flatMap (·.reports dialect sheet)).filter (·.rule = p.rule.name) =
      p.reports dialect sheet := by
  induction plan with
  | nil => cases planned
  | cons q plan ih =>
    rw [List.map_cons, List.nodup_cons] at distinct
    rw [List.flatMap_cons, List.filter_append]
    rcases List.mem_cons.1 planned with rfl | later
    · have own : (p.reports dialect sheet).filter (·.rule = p.rule.name) =
          p.reports dialect sheet := by
        rw [List.filter_eq_self]
        intro v mem
        exact decide_eq_true (p.rule_of_mem_reports dialect sheet mem)
      rw [own, filter_rule_of_not_mem distinct.1, List.append_nil]
    · have other : (q.reports dialect sheet).filter (·.rule = p.rule.name) = [] := by
        rw [List.filter_eq_nil_iff]
        intro v mem same
        apply distinct.1
        rw [← q.rule_of_mem_reports dialect sheet mem, of_decide_eq_true same]
        exact List.mem_map_of_mem later
      rw [other, List.nil_append, ih distinct.2 later]

/-! ## Isolation -/

structure Isolated (plan : List PlannedRule) (input : Input) (sheet : Sheet) : Prop where
  sorted : (checkInput plan input).violations.Pairwise fun v w => v.pos = w.pos ∨ v.pos.Before w.pos
  alone : ∀ p ∈ plan, (checkInput plan input).violations.filter (·.rule = p.rule.name) =
    (checkInput [p] input).violations
  stable : ∀ pos, (checkInput plan input).violations.filter (·.pos = pos) =
    plan.flatMap fun p => (p.reports input.dialect sheet).filter (·.pos = pos)
  attributed : ∀ v ∈ (checkInput plan input).violations, ∃ p ∈ plan, v.rule = p.rule.name
  failed : ∀ p ∈ plan, ∀ reason, (p.outcome input.dialect sheet).ending = .failed reason →
    (checkInput plan input).violations.filter (·.rule = p.rule.name) = [p.internalError reason]
  crashed : ∀ p ∈ plan, ∀ message, (p.outcome input.dialect sheet).ending = .crashed message →
    (checkInput plan input).violations.filter (·.rule = p.rule.name) =
      [p.internalError (message.getD "rule panicked")]
  finished : ∀ p ∈ plan, (p.outcome input.dialect sheet).ending = .finished →
    ((checkInput plan input).violations.filter (·.rule = p.rule.name)).Perm
      ((p.outcome input.dialect sheet).findings.map p.reportOf)

/-- Whatever the rules of a plan do, an input that parses is checked, and none of the rules changes
what is reported for another. -/
theorem checkInput_isolated {input : Input} {text : String} {sheet : Sheet}
    (read : input.text = .ok text) (parsed : input.dialect.parse text = .ok sheet) :
    (∀ plan, (checkInput plan input).fault = none) ∧
      ∀ plan : List PlannedRule, (plan.map (·.rule.name)).Nodup → Isolated plan input sheet := by
  have result (plan : List PlannedRule) : checkInput plan input = .checked input.source input.dialect
      (violations plan input.dialect sheet) ⟨input.dialect, sheet.nodeCount⟩ := by
    simp only [checkInput, read, checkText, parsed]
  have reported (plan : List PlannedRule) : (checkInput plan input).violations =
      (plan.flatMap (·.reports input.dialect sheet)).mergeSort inOrder := by
    rw [result, InputResult.checked, violations_eq_mergeSort_reports]
  constructor
  · intro plan
    rw [result]
    rfl
  · intro plan distinct
    have own : ∀ p ∈ plan, (checkInput plan input).violations.filter (·.rule = p.rule.name) =
        (p.reports input.dialect sheet).mergeSort inOrder := by
      intro p planned
      rw [reported, filter_mergeSort inOrder_trans inOrder_total, filter_rule_flatMap distinct planned]
    constructor
    case sorted =>
      rw [reported]
      refine (List.pairwise_mergeSort inOrder_trans inOrder_total _).imp ?_
      intro v w ordered
      exact Position.le_iff.1 ordered
    case alone =>
      intro p planned
      rw [own p planned, reported, List.flatMap_singleton]
    case stable =>
      intro pos
      rw [reported, filter_pos_mergeSort, List.filter_flatMap]
    case attributed =>
      intro v mem
      rw [reported, List.mem_mergeSort] at mem
      obtain ⟨p, planned, mem⟩ := List.mem_flatMap.1 mem
      exact ⟨p, planned, p.rule_of_mem_reports input.dialect sheet mem⟩
    case failed =>
      intro p planned reason ended
      rw [own p planned, PlannedRule.reports, ended]
      exact List.mergeSort_singleton _
    case crashed =>
      intro p planned message ended
      rw [own p planned, PlannedRule.reports, ended]
      exact List.mergeSort_singleton _
    case finished =>
      intro p planned ended
      rw [own p planned, PlannedRule.reports, ended]
      exact List.mergeSort_perm _ _

def findsOutOfOrder : PlannedRule :=
  ⟨.ofFindings "b" "" fun _ => [⟨⟨3, 1⟩, "y"⟩, ⟨⟨1, 1⟩, "z"⟩], .bool true, .warning, none⟩

def crashesLate : PlannedRule :=
  ⟨⟨"a", "", Rule.acceptsTrue, fun _ _ => ⟨[⟨⟨2, 1⟩, "x"⟩], .crashed none⟩⟩, .bool true, .warning,
    some "custom"⟩

def failsLate : PlannedRule :=
  ⟨⟨"c", "", Rule.acceptsTrue, fun _ _ => ⟨[⟨⟨1, 1⟩, "w"⟩], .failed "no"⟩⟩, .bool true, .warning, none⟩

theorem checkInput_isolated_crash :
    Dialect.css.parse "" = .ok ⟨[]⟩ ∧
    Isolated [findsOutOfOrder, crashesLate, failsLate] ⟨"<input>", none, .css, .ok ""⟩ ⟨[]⟩ ∧
    checkInput [findsOutOfOrder, crashesLate, failsLate] ⟨"<input>", none, .css, .ok ""⟩ =
      ⟨"<input>", .css,
        [⟨"b", ⟨1, 1⟩, "z (b)", .warning⟩,
          ⟨"a", ⟨1, 1⟩, "Internal error in rule \"a\": rule panicked", .error⟩,
          ⟨"c", ⟨1, 1⟩, "Internal error in rule \"c\": no", .error⟩,
          ⟨"b", ⟨3, 1⟩, "y (b)", .warning⟩],
        none, some ⟨.css, 0⟩⟩ := by
  have parsed : Dialect.css.parse "" = .ok ⟨[]⟩ := by
    simp only [Dialect.parse, Dialect.flavor?, Brace.parse, Brace.parseWithin]
    rw [Brace.Outline.readAll]
    rfl
  refine ⟨parsed, (checkInput_isolated rfl parsed).2 _ ?_, ?_⟩
  · decide
  · simp only [checkInput, checkText, parsed]
    have found : violations [findsOutOfOrder, crashesLate, failsLate] .css ⟨[]⟩ =
        [⟨"b", ⟨1, 1⟩, "z (b)", .warning⟩,
          ⟨"a", ⟨1, 1⟩, "Internal error in rule \"a\": rule panicked", .error⟩,
          ⟨"c", ⟨1, 1⟩, "Internal error in rule \"c\": no", .error⟩,
          ⟨"b", ⟨3, 1⟩, "y (b)", .warning⟩] := by
      have reported : [findsOutOfOrder, crashesLate, failsLate].flatMap (·.reports .css ⟨[]⟩) =
          [⟨"b", ⟨3, 1⟩, "y (b)", .warning⟩, ⟨"b", ⟨1, 1⟩, "z (b)", .warning⟩,
            ⟨"a", ⟨1, 1⟩, "Internal error in rule \"a\": rule panicked", .error⟩,
            ⟨"c", ⟨1, 1⟩, "Internal error in rule \"c\": no", .error⟩] := rfl
      rw [violations_eq_mergeSort_reports, reported]
      simp [List.mergeSort, inOrder, Position.le]
    rw [found]
    rfl

end Check

end SheetLint
