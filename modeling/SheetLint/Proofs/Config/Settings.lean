import SheetLint.Proofs.Entries
import SheetLint.Proofs.FirstProblem

namespace SheetLint.Plan

structure Listed (entry : String × Json) (s : String × Setting) : Prop where
  name : s.1 = entry.1
  meaning : Setting.ofJson entry.2 = .ok s.2

theorem settings_eq_ok_iff {entries : Entries Json} {all : List (String × Setting)} :
    settings entries = .ok all ↔ List.Forall₂ Listed entries all := by
  induction entries generalizing all with
  | nil => simp [settings, eq_comm]
  | cons entry entries ih =>
    obtain ⟨name, value⟩ := entry
    rw [settings, List.forall₂_cons_left_iff]
    cases read : Setting.ofJson value with
    | error e =>
      refine iff_of_false (by simp) ?_
      rintro ⟨s, more, listed, -, -⟩
      cases read.symm.trans listed.meaning
    | ok setting =>
      rw [map_eq_ok_iff]
      constructor
      · rintro ⟨more, later, rfl⟩
        exact ⟨_, more, ⟨rfl, read⟩, ih.1 later, rfl⟩
      · rintro ⟨⟨name', setting'⟩, more, ⟨same, meaning⟩, later, rfl⟩
        cases same
        cases read.symm.trans meaning
        exact ⟨more, ih.2 later, rfl⟩

/-- Whatever the steps, there is one entry for each rule that is named. The settings are those of the
entries, one by one in their order, or the first of the entries that is malformed is told. A value that
a later step replaces leaves no trace. -/
theorem settings_of_steps (steps : List (String × Json)) :
    (∀ entries, Entries.ofList steps = entries ↔ Entries.Settles steps entries) ∧
    (Entries.ofList steps).length = (steps.map Prod.fst).toFinset.card ∧
    (∀ all, settings (Entries.ofList steps) = .ok all ↔
      List.Forall₂ Listed (Entries.ofList steps) all) ∧
    (∀ e, settings (Entries.ofList steps) = .error e ↔
      FirstWrong Malformed (Entries.ofList steps) e) ∧
    ∀ before name value after, steps = before ++ (name, value) :: after →
      name ∈ after.map Prod.fst → ∀ value',
        Entries.ofList (before ++ (name, value') :: after) = Entries.ofList steps := by
  have settles := Entries.settles_ofList steps
  refine ⟨fun entries => ?_, settles.length_eq, fun all => settings_eq_ok_iff,
    fun e => settings_eq_error_iff, ?_⟩
  · constructor
    · rintro rfl
      exact settles
    · exact settles.unique
  · rintro before name value after rfl later value'
    exact Entries.ofList_replaced later value value'

def twoRulesInThreeSteps : List (String × Json) :=
  [("a", .array [.bool true, .object [("severity", .string "fatal")]]), ("b", .bool true),
    ("a", .null)]

theorem settings_of_three_steps :
    Entries.Settles twoRulesInThreeSteps [("a", .null), ("b", .bool true)] ∧
    settings (Entries.ofList twoRulesInThreeSteps) =
      .ok [("a", .off), ("b", .on (.bool true) none none)] ∧
    Entries.ofList [("a", .bool false), ("b", .bool true), ("a", .null)] =
      Entries.ofList twoRulesInThreeSteps := by
  obtain ⟨left, -, read, -, replaced⟩ := settings_of_steps twoRulesInThreeSteps
  refine ⟨(left _).1 rfl, (read _).2 ?_, replaced [] "a" _ _ rfl (by decide) _⟩
  exact .cons ⟨rfl, rfl⟩ (.cons ⟨rfl, rfl⟩ .nil)

end SheetLint.Plan
