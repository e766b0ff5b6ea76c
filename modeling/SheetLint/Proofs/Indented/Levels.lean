import Mathlib.Data.List.TakeWhile
import SheetLint.Indented.Nesting
import SheetLint.Proofs.Except

/-!
Nesting as one flat pass. `run` goes over the entries from left to right with a stack of the levels
that are open, and nothing else: an entry closes the levels deeper than itself, joins the innermost
level that is left, and opens a new one if it is a statement and the next entry is deeper.
Descending into blocks comes to the same (`nodesOf_eq_run`).
-/

namespace SheetLint.Indented

/-- An open level with the statement that owns it and the nodes before that statement, last first. -/
structure Level where
  indent : Nat
  prelude : Prelude
  start : Position
  opener : Position
  before : List Node
deriving Repr

namespace Level

def close (l : Level) (nodes : List Node) : List Node :=
  .block l.prelude l.start l.opener nodes.reverse :: l.before

def innermost : List Level → Nat
  | [] => 0
  | l :: _ => l.indent

end Level

/-- The open levels, innermost first, and the nodes of the innermost so far, last first. -/
structure Stack where
  nodes : List Node
  levels : List Level
deriving Repr

namespace Stack

def empty : Stack := ⟨[], []⟩

def popTo (indent : Nat) (nodes : List Node) : List Level → Stack
  | [] => ⟨nodes, []⟩
  | l :: levels =>
    if indent < l.indent then popTo indent (l.close nodes) levels else ⟨nodes, l :: levels⟩

def finish (nodes : List Node) : List Level → List Node
  | [] => nodes.reverse
  | l :: levels => finish (l.close nodes) levels

def add (s : Stack) (n : Node) : Stack :=
  { s with nodes := n :: s.nodes }

def push (limit : Nat) (s : Stack) (indent : Nat) (prelude : Prelude) (start opener : Position) :
    Except ParseError Stack :=
  if limit ≤ s.levels.length then .error ⟨.nestingTooDeep, start⟩
  else .ok ⟨[], ⟨indent, prelude, start, opener, s.nodes⟩ :: s.levels⟩

end Stack

def deeper? (indent : Nat) (rest : List Entry) : Option Entry :=
  rest.head?.filter (indent < ·.indent)

def joined (d : Declaration) (lines : List Entry) : Declaration :=
  { d with value := "\n".intercalate (d.value :: lines.map fun e => String.ofList (Text.trimEnd e.raw)) }

/-- Puts an entry on a stack that has no deeper level. A declaration takes up the deeper entries that
follow it. -/
def step (limit : Nat) (s : Stack) (e : Entry) (rest : List Entry) :
    Except ParseError (Stack × List Entry) :=
  if Level.innermost s.levels < e.indent then
    .error ⟨.unexpectedIndentation, ⟨e.start.line, 1⟩⟩
  else
    match e.kind, deeper? e.indent rest with
    | .comment text inline, none => .ok (s.add (.comment ⟨text, e.start, inline⟩), rest)
    | .comment _ _, some next => .error ⟨.unexpectedIndentation, ⟨next.start.line, 1⟩⟩
    | .declaration d, _ =>
      .ok (s.add (.declaration (joined d (rest.takeWhile (e.indent < ·.indent)))),
        rest.dropWhile (e.indent < ·.indent))
    | .selector text, none =>
      let opener := ⟨e.start.line, e.start.column + text.length⟩
      .ok (s.add (.block (.selector text) e.start opener []), rest)
    | .selector text, some next =>
      let opener := ⟨e.start.line, e.start.column + text.length⟩
      (s.push limit next.indent (.selector text) e.start opener).map (·, rest)
    | .atRule name params, none =>
      .ok (s.add (.statement (.atRule name params) e.start), rest)
    | .atRule name params, some next =>
      (s.push limit next.indent (.atRule name params) e.start e.start).map (·, rest)

theorem length_step_le {limit : Nat} {s : Stack} {e : Entry} {rest : List Entry}
    {r : Stack × List Entry} (h : step limit s e rest = .ok r) : r.2.length ≤ rest.length := by
  unfold step Stack.push at h
  repeat' split at h
  all_goals cases h
  all_goals first | exact (List.dropWhile_suffix _).length_le | exact Nat.le_refl _

def run (limit : Nat) (s : Stack) : List Entry → Except ParseError (List Node)
  | [] => .ok (Stack.finish s.nodes s.levels)
  | e :: rest =>
    match _h : step limit (Stack.popTo e.indent s.nodes s.levels) e rest with
    | .error err => .error err
    | .ok r => run limit r.1 r.2
termination_by entries => entries.length
decreasing_by exact Nat.lt_succ_of_le (length_step_le (by assumption))

theorem run_cons (limit : Nat) (s : Stack) (e : Entry) (rest : List Entry) :
    run limit s (e :: rest) =
      (step limit (Stack.popTo e.indent s.nodes s.levels) e rest).bind fun r => run limit r.1 r.2 := by
  rw [run]
  split <;> simp_all [Except.bind]

theorem run_close {limit : Nat} (nodes : List Node) (l : Level) (levels : List Level)
    {rest : List Entry} (shallow : ∀ e ∈ rest.head?, e.indent < l.indent) :
    run limit ⟨nodes, l :: levels⟩ rest = run limit ⟨l.close nodes, levels⟩ rest := by
  cases rest with
  | nil => rw [run, run, Stack.finish]
  | cons e rest => rw [run_cons, run_cons, Stack.popTo, if_pos (shallow e rfl)]

theorem deeper?_eq (indent : Nat) (rest : List Entry) :
    deeper? indent rest = (rest.takeWhile (indent < ·.indent)).head? := by
  cases rest with
  | nil => rfl
  | cons e rest =>
    rw [deeper?, List.takeWhile_cons]
    by_cases deep : indent < e.indent
    · simp [deep]
    · simp [deep, Nat.not_lt.1 deep]

/-! ## Descending into blocks -/

theorem continued_eq_joined (d : Declaration) (lines : List Entry) :
    continued d lines = joined d lines := by
  induction lines generalizing d with
  | nil => rfl
  | cons e lines ih =>
    exact ih { d with value := d.value ++ "\n" ++ String.ofList (Text.trimEnd e.raw) }

def nodeOf (depth : Nat) (e : Entry) (inner : List Entry) : Except ParseError Node :=
  match e.kind with
  | .comment text inline =>
    match inner with
    | [] => .ok (.comment ⟨text, e.start, inline⟩)
    | deeper :: _ => .error (misplaced deeper)
  | .declaration d => .ok (.declaration (continued d inner))
  | .selector text =>
    (nodesOf.blockOf depth e.start inner).map
      (.block (.selector text) e.start (selectorEnd e.start text))
  | .atRule name params =>
    if inner.isEmpty then .ok (.statement (.atRule name params) e.start)
    else (nodesOf.blockOf depth e.start inner).map (.block (.atRule name params) e.start e.start)

theorem nodesOf_cons (depth : Nat) (e : Entry) (rest : List Entry) :
    nodesOf depth e.indent (e :: rest) =
      (nodeOf depth e (rest.takeWhile (e.indent < ·.indent))).bind fun n =>
        (nodesOf depth e.indent (rest.dropWhile (e.indent < ·.indent))).map (n :: ·) := by
  rw [nodesOf, if_pos rfl, nodeOf]
  generalize rest.takeWhile (e.indent < ·.indent) = inner
  generalize rest.dropWhile (e.indent < ·.indent) = after
  cases e.kind with
  | comment text inline => cases inner <;> rfl
  | declaration d => rfl
  | selector text =>
    dsimp only
    cases nodesOf.blockOf depth e.start inner <;> rfl
  | atRule name params =>
    cases inner with
    | nil => rfl
    | cons first more =>
      dsimp only
      cases nodesOf.blockOf depth e.start (first :: more) <;> rfl

theorem nodesOf_misplaced {depth indent : Nat} {e : Entry} {rest : List Entry}
    (h : e.indent ≠ indent) : nodesOf depth indent (e :: rest) = .error (misplaced e) := by
  rw [nodesOf, if_neg h]

theorem blockOf_zero (start : Position) (e : Entry) (inner : List Entry) :
    nodesOf.blockOf 0 start (e :: inner) = .error ⟨.nestingTooDeep, start⟩ := by
  rw [nodesOf.blockOf]

theorem blockOf_succ (depth : Nat) (start : Position) (e : Entry) (inner : List Entry) :
    nodesOf.blockOf (depth + 1) start (e :: inner) = nodesOf depth e.indent (e :: inner) := by
  rw [nodesOf.blockOf]

inductive Makes (depth : Nat) (e : Entry) : List Entry → Node → Prop
  | comment (text : String) (inline : Bool) : Makes depth e [] (.comment ⟨text, e.start, inline⟩)
  | declaration {d : Declaration} {inner : List Entry} (kind : e.kind = .declaration d) :
    Makes depth e inner (.declaration (continued d inner))
  | statement (prelude : Prelude) : Makes depth e [] (.statement prelude e.start)
  | empty (prelude : Prelude) (opener : Position) :
    Makes depth e [] (.block prelude e.start opener [])
  | block {below : Nat} {first : Entry} {more : List Entry} {ns : List Node} (prelude : Prelude)
    (opener : Position) (room : depth = below + 1)
    (inside : nodesOf below first.indent (first :: more) = .ok ns) :
    Makes depth e (first :: more) (.block prelude e.start opener ns)

theorem makes_of_nodeOf {depth : Nat} {e : Entry} {inner : List Entry} {n : Node}
    (made : nodeOf depth e inner = .ok n) : Makes depth e inner n := by
  have block {prelude : Prelude} {opener : Position}
      (made : (nodesOf.blockOf depth e.start inner).map (.block prelude e.start opener) = .ok n) :
      Makes depth e inner n := by
    obtain ⟨ns, within, rfl⟩ := map_eq_ok_iff.1 made
    cases inner with
    | nil =>
      rw [nodesOf.blockOf] at within
      cases within
      exact .empty prelude opener
    | cons first more =>
      cases depth with
      | zero =>
        rw [blockOf_zero] at within
        cases within
      | succ below =>
        rw [blockOf_succ] at within
        exact .block prelude opener rfl within
  unfold nodeOf at made
  split at made
  · split at made
    · cases made
      exact .comment _ _
    · cases made
  next d kind =>
    cases made
    exact .declaration kind
  · exact block made
  · split at made
    next bare =>
      cases made
      rw [List.isEmpty_iff.1 bare]
      exact .statement _
    next => exact block made

section Cut

variable {indent : Nat} {entries rest : List Entry}

theorem takeWhile_append_shallow (shallow : ∀ e ∈ rest.head?, e.indent ≤ indent) :
    (entries ++ rest).takeWhile (indent < ·.indent) = entries.takeWhile (indent < ·.indent) := by
  induction entries with
  | nil =>
    cases rest with
    | nil => rfl
    | cons e rest => simp [shallow e rfl]
  | cons e entries ih => rw [List.cons_append, List.takeWhile_cons, List.takeWhile_cons, ih]

theorem dropWhile_append_shallow (shallow : ∀ e ∈ rest.head?, e.indent ≤ indent) :
    (entries ++ rest).dropWhile (indent < ·.indent) =
      entries.dropWhile (indent < ·.indent) ++ rest := by
  induction entries with
  | nil =>
    cases rest with
    | nil => rfl
    | cons e rest => simp [shallow e rfl]
  | cons e entries ih =>
    rw [List.cons_append, List.dropWhile_cons, List.dropWhile_cons, ih]
    split <;> rfl

end Cut

variable {limit depth : Nat}

theorem push_block {nodes : List Node} {levels : List Level} {prelude : Prelude}
    {start opener : Position} {e : Entry} {inner rest : List Entry}
    (room : levels.length + depth = limit) (shallow : ∀ r ∈ rest.head?, r.indent < e.indent)
    (inside : ∀ below l, depth = below + 1 → l.indent = e.indent →
      run limit ⟨[], l :: levels⟩ (e :: inner ++ rest) =
        (nodesOf below e.indent (e :: inner)).bind fun ns =>
          run limit ⟨ns.reverse, l :: levels⟩ rest) :
    ((Stack.push limit ⟨nodes, levels⟩ e.indent prelude start opener).bind fun s =>
        run limit s (e :: inner ++ rest)) =
      ((nodesOf.blockOf depth start (e :: inner)).map (Node.block prelude start opener)).bind
        fun n => run limit ⟨n :: nodes, levels⟩ rest := by
  cases depth with
  | zero =>
    have full : limit ≤ levels.length := by omega
    rw [blockOf_zero, Stack.push, if_pos full]
    rfl
  | succ below =>
    have free : ¬limit ≤ levels.length := by omega
    rw [blockOf_succ, Stack.push, if_neg free]
    refine (inside below _ rfl rfl).trans ?_
    cases nodesOf below e.indent (e :: inner) with
    | error err => rfl
    | ok ns =>
      refine (run_close _ _ _ shallow).trans ?_
      rw [Level.close, List.reverse_reverse]
      rfl

theorem popTo_of_le {indent : Nat} (nodes : List Node) {levels : List Level}
    (h : Level.innermost levels ≤ indent) : Stack.popTo indent nodes levels = ⟨nodes, levels⟩ := by
  cases levels with
  | nil => rfl
  | cons l levels =>
    have kept : ¬indent < l.indent := Nat.not_lt.2 h
    rw [Stack.popTo, if_neg kept]

theorem indent_lt_of_mem_takeWhile {indent : Nat} {entries : List Entry} :
    ∀ e ∈ entries.takeWhile (indent < ·.indent), indent < e.indent := by
  intro e mem
  have := List.mem_takeWhile_imp mem
  exact of_decide_eq_true this

theorem indent_le_of_head?_dropWhile {indent : Nat} {entries : List Entry} :
    ∀ e ∈ (entries.dropWhile (indent < ·.indent)).head?, e.indent ≤ indent := by
  intro e head
  have stopped := List.head?_dropWhile_not (fun e : Entry => decide (indent < e.indent)) entries
  rw [Option.mem_def.1 head] at stopped
  exact Nat.not_lt.1 (of_decide_eq_false stopped)

theorem run_entry {nodes : List Node} {levels : List Level} {e : Entry} {rest inner after : List Entry}
    (level : e.indent = Level.innermost levels) (room : levels.length + depth = limit)
    (taken : rest.takeWhile (e.indent < ·.indent) = inner)
    (dropped : rest.dropWhile (e.indent < ·.indent) = after)
    (inside : ∀ first more, inner = first :: more → ∀ below l, depth = below + 1 →
      l.indent = first.indent → run limit ⟨[], l :: levels⟩ (inner ++ after) =
        (nodesOf below first.indent inner).bind fun ns => run limit ⟨ns.reverse, l :: levels⟩ after) :
    run limit ⟨nodes, levels⟩ (e :: rest) =
      (nodeOf depth e inner).bind fun n => run limit ⟨n :: nodes, levels⟩ after := by
  have split : inner ++ after = rest := by
    rw [← taken, ← dropped, List.takeWhile_append_dropWhile]
  have placed : ¬Level.innermost levels < e.indent := by omega
  rw [run_cons, popTo_of_le nodes (Nat.le_of_eq level.symm), step, if_neg placed, deeper?_eq, taken,
    dropped, ← split, nodeOf]
  cases inner with
  | nil => cases e.kind <;>
      simp [Except.bind, Except.map, Stack.add, nodesOf.blockOf, continued_eq_joined, selectorEnd]
  | cons first more =>
    have deep : e.indent < first.indent :=
      indent_lt_of_mem_takeWhile first (taken ▸ List.mem_cons_self)
    have shallow : ∀ r ∈ after.head?, r.indent < first.indent := by
      intro r head
      rw [← dropped] at head
      exact Nat.lt_of_le_of_lt (indent_le_of_head?_dropWhile r head) deep
    cases e.kind with
    | comment text inline => rfl
    | declaration d =>
      simp only [continued_eq_joined]
      rfl
    | selector text =>
      refine .trans ?_ (push_block room shallow (inside first more rfl))
      simp only [List.head?_cons]
      rw [map_bind]
      rfl
    | atRule name params =>
      refine .trans ?_ (push_block room shallow (inside first more rfl))
      simp only [List.head?_cons]
      rw [map_bind]

theorem run_misplaced {nodes : List Node} {levels : List Level} {e : Entry} {rest : List Entry}
    (astray : e.indent ≠ Level.innermost levels)
    (inner : ∀ l outer, levels = l :: outer → Level.innermost outer < e.indent) :
    run limit ⟨nodes, levels⟩ (e :: rest) = .error (misplaced e) := by
  have refused (nodes : List Node) {levels : List Level} (deep : Level.innermost levels < e.indent) :
      step limit (Stack.popTo e.indent nodes levels) e rest = .error (misplaced e) := by
    rw [popTo_of_le nodes (Nat.le_of_lt deep), step, if_pos deep]
    rfl
  rw [run_cons]
  by_cases deep : Level.innermost levels < e.indent
  · rw [refused nodes deep]
    rfl
  · cases levels with
    | nil => exact absurd (Nat.le_zero.1 (Nat.not_lt.1 deep)) astray
    | cons l outer =>
      have shallow : e.indent < l.indent := Nat.lt_of_le_of_ne (Nat.not_lt.1 deep) astray
      rw [Stack.popTo, if_pos shallow, refused _ (inner l outer rfl)]
      rfl

@[elab_as_elim]
theorem entries_induction {motive : List Entry → Prop} (nil : motive [])
    (cons : ∀ e rest, motive (rest.takeWhile (e.indent < ·.indent)) →
      motive (rest.dropWhile (e.indent < ·.indent)) → motive (e :: rest))
    (entries : List Entry) : motive entries := by
  induction size : entries.length using Nat.strong_induction_on generalizing entries with
  | _ n ih =>
    cases entries with
    | nil => exact nil
    | cons e rest =>
      rw [List.length_cons] at size
      apply cons
      · apply ih _ _ _ rfl
        have := (List.takeWhile_sublist (l := rest) fun r => decide (e.indent < r.indent)).length_le
        omega
      · apply ih _ _ _ rfl
        have := (List.dropWhile_sublist (l := rest) fun r => decide (e.indent < r.indent)).length_le
        omega

@[elab_as_elim]
theorem nodesOf_induction {motive : Nat → Nat → List Entry → List Node → Prop}
    (nil : ∀ depth indent, motive depth indent [] [])
    (cons : ∀ depth e inner outer n ns, (∀ r ∈ inner, e.indent < r.indent) →
      (∀ r ∈ outer.head?, r.indent ≤ e.indent) → nodeOf depth e inner = .ok n →
      (∀ below deeper ms, nodesOf below deeper inner = .ok ms → motive below deeper inner ms) →
      motive depth e.indent outer ns → motive depth e.indent (e :: (inner ++ outer)) (n :: ns))
    {depth indent : Nat} {es : List Entry} {ns : List Node} (made : nodesOf depth indent es = .ok ns) :
    motive depth indent es ns := by
  induction es using entries_induction generalizing depth indent ns with
  | nil =>
    rw [nodesOf] at made
    cases made
    exact nil depth indent
  | cons e rest within later =>
    by_cases level : e.indent = indent
    · subst level
      rw [nodesOf_cons] at made
      obtain ⟨n, node, made⟩ := bind_eq_ok_iff.1 made
      obtain ⟨more, after, rfl⟩ := map_eq_ok_iff.1 made
      have built := cons depth e _ _ n more indent_lt_of_mem_takeWhile indent_le_of_head?_dropWhile node
        (fun below deeper ms inside => within inside) (later after)
      rwa [List.takeWhile_append_dropWhile] at built
    · rw [nodesOf_misplaced level] at made
      cases made

theorem run_append {nodes : List Node} {levels : List Level} (entries : List Entry)
    {rest : List Entry} (room : levels.length + depth = limit)
    (inner : ∀ e ∈ entries, ∀ l outer, levels = l :: outer → Level.innermost outer < e.indent)
    (shallow : ∀ e ∈ rest.head?, e.indent ≤ Level.innermost levels) :
    run limit ⟨nodes, levels⟩ (entries ++ rest) =
      (nodesOf depth (Level.innermost levels) entries).bind fun ns =>
        run limit ⟨ns.reverse ++ nodes, levels⟩ rest := by
  -- A block is read with one more level open, so the levels vary along the induction.
  induction entries using entries_induction generalizing depth nodes levels rest with
  | nil =>
    rw [nodesOf]
    rfl
  | cons e entries within later =>
    by_cases level : e.indent = Level.innermost levels
    · rw [← level] at shallow
      rw [← level, nodesOf_cons, List.cons_append, run_entry level room
        (takeWhile_append_shallow shallow) (dropWhile_append_shallow shallow)]
      · cases nodeOf depth e (entries.takeWhile (e.indent < ·.indent)) with
        | error err => rfl
        | ok n =>
          rw [level] at shallow
          refine (later room ?_ shallow).trans ?_
          · intro r mem
            exact inner r (.tail _ ((List.dropWhile_sublist _).subset mem))
          · rw [← level]
            cases nodesOf depth e.indent (entries.dropWhile (e.indent < ·.indent)) <;>
              simp [Except.bind, Except.map]
      · intro first more taken below l depth' same
        have above : e.indent < l.indent := by
          rw [same]
          exact indent_lt_of_mem_takeWhile first (taken ▸ List.mem_cons_self)
        have room' : (l :: levels).length + below = limit := by
          rw [List.length_cons]
          omega
        rw [← same]
        -- In the block the level around is the one that was innermost so far.
        refine (within room' ?_ ?_).trans ?_
        · rintro r mem _ _ ⟨rfl, rfl⟩
          rw [← level]
          exact indent_lt_of_mem_takeWhile r mem
        · intro r head
          rw [← dropWhile_append_shallow shallow] at head
          exact Nat.le_of_lt (Nat.lt_of_le_of_lt (indent_le_of_head?_dropWhile r head) above)
        · simp only [List.append_nil]
          rfl
    · rw [nodesOf_misplaced level]
      exact run_misplaced level (inner e List.mem_cons_self)

theorem nodesOf_eq_run (limit : Nat) (entries : List Entry) :
    nodesOf limit 0 entries = run limit .empty entries := by
  have all : run limit ⟨[], []⟩ (entries ++ []) = (nodesOf limit 0 entries).bind fun ns =>
      run limit ⟨ns.reverse ++ [], []⟩ [] := run_append entries (Nat.zero_add limit) nofun nofun
  rw [List.append_nil] at all
  refine .trans ?_ all.symm
  cases nodesOf limit 0 entries with
  | error err => rfl
  | ok ns => simp [Except.bind, run, Stack.finish]

end SheetLint.Indented
