import SheetLint.Proofs.Brace.Scan

namespace SheetLint.Brace.Scan

variable {flavor : Flavor} {parens : Nat} {s : State} {next : Option Char}

theorem scan_step {s t : State} {c : Cell} {rest : List Cell} {passed : List Item}
    (h : s.step flavor c (rest.head?.map Cell.char) = some (passed, t)) :
    scan flavor s (c :: rest) = (scan flavor t rest).map (passed ++ ·) := by
  rw [scan, h]

theorem scan_plain {text : List Cell} {c : Cell} {rest : List Cell} {p : List Item} {t : State}
    (h : (⟨.plain, parens, text⟩ : State).stepPlain flavor c (rest.head?.map Cell.char) = (p, t)) :
    scan flavor ⟨.plain, parens, text⟩ (c :: rest) = (scan flavor t rest).map (p ++ ·) :=
  scan_step (congrArg some h)

theorem scan_cons {s t : State} {c : Cell} {rest : List Cell}
    (h : s.step flavor c (rest.head?.map Cell.char) = some ([], t)) :
    scan flavor s (c :: rest) = scan flavor t rest := by
  rw [scan_step h]
  simp

def run (flavor : Flavor) (s : State) (next : Option Char) : List Cell → Option (List Item × State)
  | [] => some ([], s)
  | c :: rest =>
    match s.step flavor c ((rest.head?.map Cell.char).or next) with
    | none => none
    | some (passed, t) => (run flavor t next rest).map fun r => (passed ++ r.1, r.2)

theorem head?_char_append (cells more : List Cell) :
    (cells ++ more).head?.map Cell.char =
      (cells.head?.map Cell.char).or (more.head?.map Cell.char) := by
  cases cells <;> rfl

theorem scan_append (cells more : List Cell) :
    scan flavor s (cells ++ more) = (run flavor s (more.head?.map Cell.char) cells).bind fun r =>
      (scan flavor r.2 more).map (r.1 ++ ·) := by
  induction cells generalizing s with
  | nil => simp [run]
  | cons c cells ih =>
    rw [List.cons_append, scan, run, head?_char_append]
    cases s.step flavor c ((cells.head?.map Cell.char).or (more.head?.map Cell.char)) with
    | none => rfl
    | some p =>
      simp only [ih, Option.bind_map, Option.map_bind, Option.map_map, Function.comp_def,
        List.append_assoc]

theorem scan_of_run {cells more : List Cell} {is : List Item} {t : State}
    (h : run flavor s (more.head?.map Cell.char) cells = some (is, t)) :
    scan flavor s (cells ++ more) = (scan flavor t more).map (is ++ ·) := by
  rw [scan_append, h, Option.bind_some]

/-! ## From place to place -/

/-- Whether a scan comes from a state before some cells to a state before those that are left, and what it
passes on the way. -/
def Passes (flavor : Flavor) (s : State) (cells : List Cell) (is : List Item) (t : State)
    (left : List Cell) : Prop :=
  ∃ taken, cells = taken ++ left ∧ run flavor s (left.head?.map Cell.char) taken = some (is, t)

theorem Passes.refl (s : State) (cells : List Cell) : Passes flavor s cells [] s cells :=
  ⟨[], rfl, rfl⟩

theorem Passes.step {s t u : State} {c : Cell} {rest left : List Cell} {is js : List Item}
    (first : s.step flavor c (rest.head?.map Cell.char) = some (is, t))
    (later : Passes flavor t rest js u left) : Passes flavor s (c :: rest) (is ++ js) u left := by
  obtain ⟨taken, rfl, ran⟩ := later
  refine ⟨c :: taken, rfl, ?_⟩
  rw [run, ← head?_char_append, first]
  simp only [ran, Option.map_some]

theorem Passes.cons {s t u : State} {c : Cell} {rest left : List Cell} {js : List Item}
    (first : s.step flavor c (rest.head?.map Cell.char) = some ([], t))
    (later : Passes flavor t rest js u left) : Passes flavor s (c :: rest) js u left :=
  later.step first

theorem Passes.plain {text : List Cell} {c : Cell} (rest : List Cell) {is : List Item} {t : State}
    (h : (⟨.plain, parens, text⟩ : State).stepPlain flavor c (rest.head?.map Cell.char) = (is, t)) :
    Passes flavor ⟨.plain, parens, text⟩ (c :: rest) is t rest := by
  rw [← List.append_nil is]
  exact (Passes.refl t rest).step (congrArg some h)

theorem Passes.trans {s t u : State} {cells mid left : List Cell} {is js : List Item}
    (first : Passes flavor s cells is t mid) (later : Passes flavor t mid js u left) :
    Passes flavor s cells (is ++ js) u left := by
  obtain ⟨taken, rfl, ran⟩ := first
  induction taken generalizing s is with
  | nil =>
    cases ran
    exact later
  | cons c taken ih =>
    rw [run, ← head?_char_append] at ran
    split at ran
    · cases ran
    next passed onward stepped =>
      obtain ⟨⟨more, v⟩, further, same⟩ := Option.map_eq_some_iff.1 ran
      cases same
      rw [List.append_assoc]
      exact (ih further).step stepped

theorem Passes.scan_eq {s t : State} {cells left : List Cell} {is : List Item}
    (h : Passes flavor s cells is t left) :
    scan flavor s cells = (scan flavor t left).map (is ++ ·) := by
  obtain ⟨taken, rfl, ran⟩ := h
  exact scan_of_run ran

end SheetLint.Brace.Scan
