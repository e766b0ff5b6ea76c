import SheetLint.Proofs.Except
import SheetLint.Proofs.Loop
import SheetLint.Tree
import SheetLint.ParseError

/-!
Reading a tree by descending into its blocks. The reading of one container goes turn by turn, and a turn
that comes to a block reads the container in it first, unless as many are being read as may be
(`Descent.Ends`). If every turn takes something (`Descent.Advances`), every descent ends, with one result
and never more than `Sheet.maxNesting` containers deep. A reading that keeps the open blocks in a list
comes to the same if it does so for every single turn (`Descent.Ends.readOn_eq`).
-/

namespace SheetLint

/-- What a turn of reading a container comes to; `σ` is what is left to be read, and `φ` what is known of
a block when it begins. -/
inductive Visit (σ φ : Type) where
  | next (nodes : List Node) (rest : σ)
  | done (result : Except ParseError (List Node × σ))
  | enter (block : φ) (rest : σ)

def Visit.left? {σ φ : Type} : Visit σ φ → Option σ
  | next _ rest => some rest
  | done _ => none
  | enter _ rest => some rest

def Visit.map {σ τ φ : Type} (f : σ → τ) : Visit σ φ → Visit τ φ
  | next nodes rest => next nodes (f rest)
  | done r => done (r.map fun body => (body.1, f body.2))
  | enter block rest => enter block (f rest)

/-- A way of reading trees from lists, where `κ` is what the turns of a container depend on. -/
structure Descent (α φ κ : Type) where
  outermost : κ
  inside : φ → κ
  visit : κ → List Node → List α → Visit (List α) φ
  place : φ → Position
  /-- The nodes of a container so far, when those of the block that has just been read are given. -/
  close : φ → List Node → List Node

namespace Descent

variable {α φ κ : Type} {d : Descent α φ κ}

inductive Ends (d : Descent α φ κ) :
    (depth deep : Nat) → κ → List Node → List α → Except ParseError (List Node × List α) → Prop
  | done {depth : Nat} {k : κ} {nodes : List Node} {items : List α}
    {r : Except ParseError (List Node × List α)} (turn : d.visit k nodes items = .done r) :
    Ends d depth 0 k nodes items r
  | next {depth deep : Nat} {k : κ} {nodes more : List Node} {items rest : List α}
    {r : Except ParseError (List Node × List α)} (turn : d.visit k nodes items = .next more rest)
    (later : Ends d depth deep k more rest r) : Ends d depth deep k nodes items r
  | refused {depth : Nat} {k : κ} {nodes : List Node} {items rest : List α} {b : φ}
    (turn : d.visit k nodes items = .enter b rest) (full : Sheet.maxNesting ≤ depth) :
    Ends d depth 0 k nodes items (.error ⟨.nestingTooDeep, d.place b⟩)
  | failed {depth deep : Nat} {k : κ} {nodes : List Node} {items rest : List α} {b : φ}
    {e : ParseError} (turn : d.visit k nodes items = .enter b rest)
    (room : depth < Sheet.maxNesting)
    (within : Ends d (depth + 1) deep (d.inside b) [] rest (.error e)) :
    Ends d depth (deep + 1) k nodes items (.error e)
  | entered {depth deep deep' : Nat} {k : κ} {nodes inner : List Node} {items rest left : List α}
    {b : φ} {r : Except ParseError (List Node × List α)}
    (turn : d.visit k nodes items = .enter b rest) (room : depth < Sheet.maxNesting)
    (within : Ends d (depth + 1) deep (d.inside b) [] rest (.ok (inner, left)))
    (later : Ends d depth deep' k (d.close b inner) left r) :
    Ends d depth (max (deep + 1) deep') k nodes items r

inductive Iterates (d : Descent α φ κ) (depth : Nat) (k : κ) :
    List Node → List α → List Node → List α → Prop
  | next {nodes more : List Node} {items rest : List α}
    (turn : d.visit k nodes items = .next more rest) : Iterates d depth k nodes items more rest
  | entered {deep : Nat} {nodes inner : List Node} {items rest left : List α} {b : φ}
    (turn : d.visit k nodes items = .enter b rest) (room : depth < Sheet.maxNesting)
    (within : Ends d (depth + 1) deep (d.inside b) [] rest (.ok (inner, left))) :
    Iterates d depth k nodes items (d.close b inner) left

structure Advances (d : Descent α φ κ) : Prop where
  taken : ∀ k nodes items rest, (d.visit k nodes items).left? = some rest →
    ∃ taken, taken ≠ [] ∧ items = taken ++ rest
  suffix : ∀ k nodes items inner left, d.visit k nodes items = .done (.ok (inner, left)) →
    left <:+ items

theorem Ends.unique {depth deep : Nat} {k : κ} {nodes : List Node} {items : List α}
    {r : Except ParseError (List Node × List α)} (h : d.Ends depth deep k nodes items r) :
    ∀ deep' r', d.Ends depth deep' k nodes items r' → deep' = deep ∧ r' = r := by
  -- A turn comes to one thing only, so both descents go the same way.
  induction h with
  | done turn =>
    intro deep' r' h'
    cases h' with
    | done turn' => cases turn.symm.trans turn'; exact ⟨rfl, rfl⟩
    | next turn' | refused turn' | failed turn' | entered turn' => cases turn.symm.trans turn'
  | next turn later ih =>
    intro deep' r' h'
    cases h' with
    | next turn' later' => cases turn.symm.trans turn'; exact ih _ _ later'
    | done turn' | refused turn' | failed turn' | entered turn' => cases turn.symm.trans turn'
  | refused turn full =>
    intro deep' r' h'
    cases h' with
    | refused turn' => cases turn.symm.trans turn'; exact ⟨rfl, rfl⟩
    | failed _ room | entered _ room => exact absurd full (Nat.not_le.2 room)
    | done turn' | next turn' => cases turn.symm.trans turn'
  | failed turn room within ih =>
    intro deep' r' h'
    cases h' with
    | refused _ full => exact absurd full (Nat.not_le.2 room)
    | failed turn' _ within' =>
      cases turn.symm.trans turn'
      obtain ⟨rfl, same⟩ := ih _ _ within'
      cases same
      exact ⟨rfl, rfl⟩
    | entered turn' _ within' =>
      cases turn.symm.trans turn'
      cases (ih _ _ within').2
    | done turn' | next turn' => cases turn.symm.trans turn'
  | entered turn room within later ih ih' =>
    intro deep' r' h'
    cases h' with
    | refused _ full => exact absurd full (Nat.not_le.2 room)
    | failed turn' _ within' =>
      cases turn.symm.trans turn'
      cases (ih _ _ within').2
    | entered turn' _ within' later' =>
      cases turn.symm.trans turn'
      obtain ⟨rfl, same⟩ := ih _ _ within'
      cases same
      obtain ⟨rfl, rfl⟩ := ih' _ _ later'
      exact ⟨rfl, rfl⟩
    | done turn' | next turn' => cases turn.symm.trans turn'

theorem Ends.depth_le {depth deep : Nat} {k : κ} {nodes : List Node} {items : List α}
    {r : Except ParseError (List Node × List α)} (h : d.Ends depth deep k nodes items r)
    (room : depth ≤ Sheet.maxNesting) : depth + deep ≤ Sheet.maxNesting := by
  induction h with
  | done | refused => exact room
  | next _ _ ih => exact ih room
  | failed _ deeper _ ih =>
    have := ih deeper
    omega
  | entered _ deeper _ _ ih ih' =>
    have := ih deeper
    have := ih' room
    omega

theorem Ends.exists_last {depth deep : Nat} {k : κ} {nodes inner : List Node} {items left : List α}
    (h : d.Ends depth deep k nodes items (.ok (inner, left))) :
    ∃ nodes items, d.visit k nodes items = .done (.ok (inner, left)) := by
  generalize same : Except.ok (inner, left) = r at h
  induction h with
  | done turn =>
    cases same
    exact ⟨_, _, turn⟩
  | next _ _ ih => exact ih same
  | refused | failed => cases same
  | entered _ _ _ _ _ ih => exact ih same

/-! ## Progress -/

theorem Advances.suffix_of_ends (advances : d.Advances) {depth deep : Nat} {k : κ}
    {nodes : List Node} {items : List α} {r : Except ParseError (List Node × List α)}
    (h : d.Ends depth deep k nodes items r) : ∀ inner left, r = .ok (inner, left) → left <:+ items := by
  have passed {k : κ} {nodes : List Node} {items rest : List α}
      (turn : (d.visit k nodes items).left? = some rest) : rest <:+ items := by
    obtain ⟨taken, -, rfl⟩ := advances.taken k nodes items rest turn
    exact List.suffix_append taken rest
  induction h with
  | done turn =>
    rintro inner left rfl
    exact advances.suffix _ _ _ inner left turn
  | next turn _ ih =>
    intro inner left same
    exact (ih inner left same).trans (passed (by rw [turn]; rfl))
  | refused | failed => nofun
  | entered turn _ _ _ ih ih' =>
    intro inner left same
    exact (ih' inner left same).trans ((ih _ _ rfl).trans (passed (by rw [turn]; rfl)))

theorem Advances.taken_of_iterates (advances : d.Advances) {depth : Nat} {k : κ}
    {nodes more : List Node} {items left : List α} (h : d.Iterates depth k nodes items more left) :
    ∃ taken, taken ≠ [] ∧ items = taken ++ left := by
  cases h with
  | next turn => exact advances.taken _ _ _ _ (by rw [turn]; rfl)
  | entered turn _ within =>
    obtain ⟨taken, nonempty, rfl⟩ := advances.taken _ _ _ _ (by rw [turn]; rfl)
    obtain ⟨inside, rfl⟩ := advances.suffix_of_ends within _ _ rfl
    exact ⟨taken ++ inside, List.append_ne_nil_of_left_ne_nil nonempty _, by rw [List.append_assoc]⟩

theorem Advances.exists_ends (advances : d.Advances) (depth : Nat) (k : κ) (nodes : List Node)
    (items : List α) : ∃ deep r, d.Ends depth deep k nodes items r := by
  -- Every turn shortens what is left, and what a block leaves is no longer than what it was given.
  induction size : items.length using Nat.strongRecOn generalizing depth k nodes items with
  | ind n ih =>
    subst size
    have shorter {rest : List α} (turn : (d.visit k nodes items).left? = some rest) :
        rest.length < items.length := by
      obtain ⟨taken, nonempty, rfl⟩ := advances.taken k nodes items rest turn
      have := List.length_pos_iff.2 nonempty
      rw [List.length_append]
      omega
    cases turn : d.visit k nodes items with
    | done r => exact ⟨0, r, .done turn⟩
    | next more rest =>
      obtain ⟨deep, r, later⟩ := ih _ (shorter (by rw [turn]; rfl)) depth k more rest rfl
      exact ⟨deep, r, .next turn later⟩
    | enter b rest =>
      have less : rest.length < items.length := shorter (by rw [turn]; rfl)
      by_cases room : depth < Sheet.maxNesting
      · obtain ⟨deep, r, within⟩ := ih _ less (depth + 1) (d.inside b) [] rest rfl
        cases r with
        | error e => exact ⟨deep + 1, _, .failed turn room within⟩
        | ok body =>
          obtain ⟨inner, left⟩ := body
          have still := (advances.suffix_of_ends within inner left rfl).length_le
          obtain ⟨deep', r, later⟩ :=
            ih _ (Nat.lt_of_le_of_lt still less) depth k (d.close b inner) left rfl
          exact ⟨_, r, .entered turn room within later⟩
      · exact ⟨0, _, .refused turn (Nat.not_lt.1 room)⟩

/-- Whether reading on always takes something, and ends wherever it is entered, with one result and
not more than `Sheet.maxNesting` containers deep. -/
structure Progresses (d : Descent α φ κ) : Prop where
  taken : ∀ depth k nodes items more left, d.Iterates depth k nodes items more left →
    ∃ taken, taken ≠ [] ∧ items = taken ++ left
  ends : ∀ depth k nodes items, depth ≤ Sheet.maxNesting →
    ∃ deep r, depth + deep ≤ Sheet.maxNesting ∧ d.Ends depth deep k nodes items r ∧
      ∀ deep' r', d.Ends depth deep' k nodes items r' → deep' = deep ∧ r' = r

theorem Advances.progresses (advances : d.Advances) : d.Progresses where
  taken _ _ _ _ _ _ h := advances.taken_of_iterates h
  ends depth k nodes items room := by
    obtain ⟨deep, r, ends⟩ := advances.exists_ends depth k nodes items
    exact ⟨deep, r, ends.depth_le room, ends, ends.unique⟩

/-! ## Open blocks in a list -/

abbrev Onward (α φ : Type) :=
  List Node → List φ → List α → Except ParseError (List Node)

def context (d : Descent α φ κ) : List φ → κ
  | [] => d.outermost
  | b :: _ => d.inside b

def leave (d : Descent α φ κ) (readOn : Onward α φ) (blocks : List φ)
    (body : List Node × List α) : Except ParseError (List Node) :=
  match blocks with
  | [] => .ok body.1
  | b :: blocks => readOn (d.close b body.1) blocks body.2

def resume (d : Descent α φ κ) (readOn : Onward α φ) (blocks : List φ) :
    Visit (List α) φ → Except ParseError (List Node)
  | .next nodes rest => readOn nodes blocks rest
  | .done r => r.bind (d.leave readOn blocks)
  | .enter b rest =>
    if Sheet.maxNesting ≤ blocks.length then .error ⟨.nestingTooDeep, d.place b⟩
    else readOn [] (b :: blocks) rest

theorem Ends.readOn_eq {readOn : Onward α φ}
    (turns : ∀ nodes blocks items,
      readOn nodes blocks items = d.resume readOn blocks (d.visit (d.context blocks) nodes items))
    {depth deep : Nat} {k : κ} {nodes : List Node} {items : List α}
    {r : Except ParseError (List Node × List α)} (h : d.Ends depth deep k nodes items r) :
    ∀ blocks, blocks.length = depth → d.context blocks = k →
      readOn nodes blocks items = r.bind (d.leave readOn blocks) := by
  -- The depth and the context of a container are told by the blocks that are open.
  induction h with
  | done turn =>
    rintro blocks - rfl
    rw [turns, turn, resume]
  | next turn _ ih =>
    rintro blocks length rfl
    rw [turns, turn, resume, ih blocks length rfl]
  | refused turn full =>
    rintro blocks rfl rfl
    rw [turns, turn, resume, if_pos full]
    rfl
  | @failed _ _ _ _ _ _ b _ turn room _ ih =>
    rintro blocks rfl rfl
    rw [turns, turn, resume, if_neg (Nat.not_le.2 room)]
    exact ih (b :: blocks) rfl rfl
  | @entered _ _ _ _ _ _ _ _ _ b _ turn room _ _ ih ih' =>
    rintro blocks rfl rfl
    rw [turns, turn, resume, if_neg (Nat.not_le.2 room)]
    exact (ih (b :: blocks) rfl rfl).trans (ih' blocks rfl rfl)

end Descent

end SheetLint
