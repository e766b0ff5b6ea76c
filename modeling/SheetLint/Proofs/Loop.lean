import Mathlib.Data.List.Basic

/-!
Loops by what one turn of them does. A loop whose every turn takes something off a list ends within as
many turns as the list is long, and one more; and a function that does not change along the turns says
how it ends (`Turn.Consumes.computes`).
-/

namespace SheetLint

/-- What a turn of a loop comes to: the state of the next turn, or the result. -/
inductive Turn (σ ρ : Type) where
  | next (state : σ)
  | done (result : ρ)

namespace Turn

variable {σ τ ρ α : Type}

def map (f : σ → τ) : Turn σ ρ → Turn τ ρ
  | next s => next (f s)
  | done r => done r

def result (f : σ → ρ) : Turn σ ρ → ρ
  | next s => f s
  | done r => r

inductive Ends (turn : σ → Turn σ ρ) : Nat → σ → ρ → Prop
  | done {s : σ} {r : ρ} (last : turn s = .done r) : Ends turn 1 s r
  | next {n : Nat} {s t : σ} {r : ρ} (here : turn s = .next t) (later : Ends turn n t r) :
    Ends turn (n + 1) s r

theorem Ends.unique {turn : σ → Turn σ ρ} {n : Nat} {s : σ} {r : ρ} (h : Ends turn n s r) :
    ∀ m q, Ends turn m s q → m = n ∧ q = r := by
  induction h with
  | done last =>
    intro m q h'
    cases h' with
    | done last' => cases last.symm.trans last'; exact ⟨rfl, rfl⟩
    | next here => cases last.symm.trans here
  | next here later ih =>
    intro m q h'
    cases h' with
    | done last => cases here.symm.trans last
    | next here' later' =>
      cases here.symm.trans here'
      obtain ⟨rfl, rfl⟩ := ih _ _ later'
      exact ⟨rfl, rfl⟩

def orFail (turn? : σ → Option (Turn σ ρ)) (s : σ) : Turn σ (Option ρ) :=
  match turn? s with
  | none => done none
  | some (next t) => next t
  | some (done r) => done (some r)

theorem Ends.orFail {turn? : σ → Option (Turn σ ρ)} {turn : τ → Turn τ ρ} {f : σ → τ}
    (same : ∀ s, (turn? s).map (map f) = some (turn (f s))) {n : Nat} {t : τ} {r : ρ}
    (h : Ends turn n t r) : ∀ s, f s = t → Ends (orFail turn?) n s (some r) := by
  induction h with
  | done last =>
    rintro s rfl
    obtain ⟨v, here, maps⟩ := Option.map_eq_some_iff.1 (same s)
    rw [last] at maps
    cases v with
    | next t => cases maps
    | done r =>
      cases maps
      exact .done (by rw [Turn.orFail, here])
  | next turned later ih =>
    rintro s rfl
    obtain ⟨v, here, maps⟩ := Option.map_eq_some_iff.1 (same s)
    rw [turned] at maps
    cases v with
    | next t =>
      cases maps
      exact .next (by rw [Turn.orFail, here]) (ih t rfl)
    | done r => cases maps

def Consumes (left : σ → List α) (turn : σ → Turn σ ρ) : Prop :=
  ∀ s t, turn s = .next t → ∃ taken, taken ≠ [] ∧ left s = taken ++ left t

/-- Whether a loop consumes what is left and ends, wherever it is entered, as a function says. -/
structure Computes (left : σ → List α) (turn : σ → Turn σ ρ) (f : σ → ρ) : Prop where
  consumes : Consumes left turn
  ends : ∀ s, ∃ n, n ≤ (left s).length + 1 ∧ Ends turn n s (f s)

variable {left : σ → List α} {turn : σ → Turn σ ρ}

theorem Consumes.length_lt (h : Consumes left turn) {s t : σ} (here : turn s = .next t) :
    (left t).length < (left s).length := by
  obtain ⟨taken, nonempty, split⟩ := h s t here
  have := List.length_pos_iff.2 nonempty
  rw [split, List.length_append]
  omega

theorem Consumes.computes (h : Consumes left turn) {f : σ → ρ}
    (kept : ∀ s, (turn s).result f = f s) : Computes left turn f := by
  refine ⟨h, fun s => ?_⟩
  induction size : (left s).length using Nat.strongRecOn generalizing s with
  | ind size' ih =>
    have same := kept s
    cases here : turn s with
    | done r =>
      rw [here, result] at same
      exact ⟨1, Nat.le_add_left 1 _, same ▸ .done here⟩
    | next t =>
      rw [here, result] at same
      have shorter := h.length_lt here
      obtain ⟨n, few, ends⟩ := ih _ (size ▸ shorter) t rfl
      exact ⟨n + 1, by omega, same ▸ .next here ends⟩

end Turn

theorem exists_taken {α : Type} {a : α} {rest left : List α} (later : left <:+ rest) :
    ∃ taken, taken ≠ [] ∧ a :: rest = taken ++ left := by
  obtain ⟨more, rfl⟩ := later
  exact ⟨a :: more, List.cons_ne_nil _ _, rfl⟩

end SheetLint
