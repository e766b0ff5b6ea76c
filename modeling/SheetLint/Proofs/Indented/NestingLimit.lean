import SheetLint.Proofs.Indented.Order
import SheetLint.Proofs.Indented.Values

/-!
The nesting limit of an indented sheet. Only blocks with content count: in an accepted tree no chain of
them is longer than the limit, and a text is refused because of the limit at the first statement whose
block has content and would be one too many. How deep a statement lies is told by the entries before
it alone: its owner is the nearest one that is less indented, that one's owner the nearest before it that
is less indented again, and so on (`owners`).
-/

namespace SheetLint

namespace Node

/-- Whether nodes are nested one in the other, the first of them among `ns`. -/
inductive Chain : List Node → List Node → Prop
  | nil (ns : List Node) : Chain ns []
  | cons {ns inner c : List Node} {n : Node} {opener : Position} (mem : n ∈ ns)
    (block : n.block? = some (opener, inner)) (within : Chain inner c) : Chain ns (n :: c)

def IsFilled (n : Node) : Prop :=
  ∃ opener first more, n.block? = some (opener, first :: more)

end Node

namespace Indented

/-! ## Chains of blocks -/

theorem length_chain_le {depth indent : Nat} {es : List Entry} {ns : List Node}
    (made : nodesOf depth indent es = .ok ns) :
    ∀ c, Node.Chain ns c → (∀ n ∈ c, n.IsFilled) → c.length ≤ depth := by
  refine nodesOf_induction ?_ ?_ made
  · intro depth indent c chain filled
    cases chain with
    | nil => exact Nat.zero_le depth
    | cons mem => cases mem
  · intro depth e inner outer n ns deep last node within later c chain filled
    cases chain with
    | nil => exact Nat.zero_le depth
    | cons mem block nested =>
      rcases List.mem_cons.1 mem with rfl | mem
      · obtain ⟨⟨_, first, others, full⟩, deeper⟩ := List.forall_mem_cons.1 filled
        cases makes_of_nodeOf node with
        | comment | declaration | statement => cases block
        | empty => cases full
        | block prelude opener room inside =>
          cases block
          rw [List.length_cons, room]
          exact Nat.succ_le_succ (within _ _ _ inside _ nested deeper)
      · exact later _ (.cons mem block nested) filled

/-! ## Openers -/

/-- Whether the block of a statement opens on the line of a text on which the statement begins, if the
statement is a rule just after the last character of the line that is no blank. -/
structure OpensOn (line : Line) (prelude : Prelude) (start opener : Position) : Prop where
  begins : start.line = line.number
  opens : opener.line = line.number
  rule : ∀ selector, prelude = .selector selector →
    opener.column = (Text.trimEnd line.chars).length + 1

theorem selector_of_kindOf {content : List Char} {start : Position} {lines rest : List Line}
    {selector : String} (h : kindOf content start lines = .ok (.selector selector, rest)) :
    selector = String.ofList content := by
  unfold kindOf at h
  split at h
  · cases h
  · split at h <;> cases h
  · cases h
  · split at h
    · cases h
    · cases h
      rfl

theorem Entry.From.opensOn {e : Entry} {line : Line} (origin : e.From line)
    (kept : Text.trimEnd (e.raw.dropWhile isIndent) ≠ []) {depth : Nat} {inner : List Entry}
    {prelude : Prelude} {start opener : Position} {nodes : List Node}
    (node : nodeOf depth e inner = .ok (.block prelude start opener nodes)) :
    OpensOn line prelude start opener := by
  have here : e.start.line = line.number := by rw [origin.start]
  unfold nodeOf at node
  split at node
  · split at node <;> cases node
  · cases node
  next selector kind =>
    obtain ⟨ns, -, same⟩ := map_eq_ok_iff.1 node
    cases same
    refine ⟨here, here, fun _ _ => ?_⟩
    obtain ⟨lines, rest, read⟩ := origin.kind
    rw [kind, ← origin.raw] at read
    rw [selector_of_kindOf read, ← origin.raw, e.trimEnd_raw kept, selectorEnd, String.length_ofList,
      List.length_append, origin.start, origin.indent, ← origin.raw]
    simp only
    omega
  next name params kind =>
    split at node
    · cases node
    · obtain ⟨ns, -, same⟩ := map_eq_ok_iff.1 node
      cases same
      refine ⟨here, here, ?_⟩
      intro selector same
      cases same

theorem opensOn_of_entries {text : List Char} {es : List Entry} (scanned : entries text = .ok es)
    {depth indent : Nat} {ns : List Node} (made : nodesOf depth indent es = .ok ns)
    {prelude : Prelude} {start opener : Position} {nodes : List Node}
    (mem : .block prelude start opener nodes ∈ Node.walkAll ns) :
    ∃ line ∈ linesOf text, OpensOn line prelude start opener := by
  have one : ∀ e ∈ es, ∀ depth inner n, nodeOf depth e inner = .ok n →
      ∀ prelude start opener nodes, n = .block prelude start opener nodes →
        ∃ line ∈ linesOf text, OpensOn line prelude start opener := by
    rintro e among depth inner _ node prelude start opener nodes rfl
    obtain ⟨line, within, origin⟩ := from_of_mem_entriesOf none _ es scanned e among
    exact ⟨line, within, origin.opensOn (content_ne_nil none _ es scanned e among) node⟩
  obtain ⟨es', -, opens⟩ := forall₂_of_nodesOf one made
  obtain ⟨e, -, opens⟩ := exists_of_forall₂ opens mem
  exact opens prelude start opener nodes rfl

/-! ## Owners -/

/-- The entries that an entry with some indentation lies in, innermost first, by those before it, the
last of them first. -/
def owners (indent : Nat) : List Entry → List Entry
  | [] => []
  | e :: before => if e.indent < indent then e :: owners e.indent before else owners indent before

theorem owners_cons_of_lt {indent : Nat} {e : Entry} {before : List Entry} (h : e.indent < indent) :
    owners indent (e :: before) = e :: owners e.indent before := by
  rw [owners, if_pos h]

theorem owners_zero (before : List Entry) : owners 0 before = [] := by
  induction before with
  | nil => rfl
  | cons e before ih => rw [owners, if_neg (Nat.not_lt_zero _), ih]

theorem owners_append {indent : Nat} {taken : List Entry} (deep : ∀ r ∈ taken, indent ≤ r.indent)
    (before : List Entry) : owners indent (taken ++ before) = owners indent before := by
  induction taken with
  | nil => rfl
  | cons r taken ih =>
    obtain ⟨first, deep⟩ := List.forall_mem_cons.1 deep
    rw [List.cons_append, owners, if_neg (Nat.not_lt.2 first), ih deep]

theorem mem_owners {e : Entry} {taken : List Entry} (deep : ∀ r ∈ taken, e.indent < r.indent)
    {indent : Nat} (h : e.indent < indent) (before : List Entry) :
    e ∈ owners indent (taken ++ e :: before) := by
  induction taken generalizing indent with
  | nil =>
    rw [List.nil_append, owners_cons_of_lt h]
    exact List.mem_cons_self
  | cons r taken ih =>
    obtain ⟨first, deep⟩ := List.forall_mem_cons.1 deep
    rw [List.cons_append, owners]
    split
    · exact .tail _ (ih deep first)
    · exact ih deep h

def Entry.IsStatement (e : Entry) : Prop :=
  match e.kind with
  | .selector _ | .atRule _ _ => True
  | .comment _ _ | .declaration _ => False

/-- Whether the block of an entry would be nested in `limit` others and have `next` in it. Other entries
than statements have no blocks. -/
structure Exceeds (limit : Nat) (before : List Entry) (e next : Entry) : Prop where
  filled : e.indent < next.indent
  statement : e.IsStatement
  nested : ∀ o ∈ owners e.indent before, o.IsStatement
  full : limit ≤ (owners e.indent before).length

def FirstPast (limit : Nat) (passed es : List Entry) (e : Entry) : Prop :=
  ∃ before next after, es = before ++ e :: next :: after ∧
    Exceeds limit (before.reverse ++ passed) e next ∧
    ∀ earlier e' next' later, es = earlier ++ e' :: next' :: later → earlier.length < before.length →
      ¬Exceeds limit (earlier.reverse ++ passed) e' next'

/-! ## One step -/

structure Owned (passed : List Entry) (levels : List Level) : Prop where
  nested : ∀ l outer, l :: outer <:+ levels → (owners l.indent passed).length = outer.length + 1 ∧
    ∀ o ∈ owners l.indent passed, o.IsStatement
  decreasing : levels.Pairwise fun a b => b.indent < a.indent

theorem Owned.nil (passed : List Entry) : Owned passed [] := by
  constructor
  · intro l outer suffix
    cases List.suffix_nil.1 suffix
  · exact .nil

theorem Owned.suffix {passed : List Entry} {levels outer : List Level} (h : Owned passed levels)
    (suffix : outer <:+ levels) : Owned passed outer :=
  ⟨fun l more inner => h.nested l more (inner.trans suffix), h.decreasing.sublist suffix.sublist⟩

theorem Owned.innermost {passed : List Entry} {levels : List Level} (h : Owned passed levels) :
    (owners (Level.innermost levels) passed).length = levels.length ∧
      ∀ o ∈ owners (Level.innermost levels) passed, o.IsStatement := by
  cases levels with
  | nil =>
    rw [Level.innermost, owners_zero]
    exact ⟨rfl, List.forall_mem_nil _⟩
  | cons l outer => exact h.nested l outer List.suffix_rfl

theorem Owned.indent_le {passed : List Entry} {levels : List Level} (h : Owned passed levels) :
    ∀ l ∈ levels, l.indent ≤ Level.innermost levels := by
  intro l mem
  cases levels with
  | nil => cases mem
  | cons first outer =>
    rcases List.mem_cons.1 mem with rfl | mem
    · exact Nat.le_refl _
    · exact Nat.le_of_lt ((List.pairwise_cons.1 h.decreasing).1 l mem)

theorem Owned.append {passed taken : List Entry} {levels : List Level} (h : Owned passed levels)
    (deep : ∀ r ∈ taken, Level.innermost levels ≤ r.indent) : Owned (taken ++ passed) levels := by
  refine ⟨fun l outer suffix => ?_, h.decreasing⟩
  have low := h.indent_le l (suffix.subset List.mem_cons_self)
  rw [owners_append fun r mem => low.trans (deep r mem)]
  exact h.nested l outer suffix

theorem Owned.push {passed : List Entry} {levels : List Level} (h : Owned passed levels) {e : Entry}
    (level : e.indent = Level.innermost levels) (statement : e.IsStatement) {l : Level}
    (deep : e.indent < l.indent) : Owned (e :: passed) (l :: levels) := by
  have kept : Owned ([e] ++ passed) levels :=
    h.append (List.forall_mem_singleton.2 (Nat.le_of_eq level.symm))
  constructor
  · intro m outer suffix
    rcases List.suffix_cons_iff.1 suffix with same | suffix
    · cases same
      rw [owners_cons_of_lt deep, level, List.length_cons, h.innermost.1, List.forall_mem_cons]
      exact ⟨rfl, statement, h.innermost.2⟩
    · exact kept.nested m outer suffix
  · refine List.pairwise_cons.2 ⟨fun m mem => ?_, h.decreasing⟩
    exact Nat.lt_of_le_of_lt ((h.indent_le m mem).trans (Nat.le_of_eq level.symm)) deep

theorem popTo_suffix (indent : Nat) (nodes : List Node) (levels : List Level) :
    (Stack.popTo indent nodes levels).levels <:+ levels := by
  induction levels generalizing nodes with
  | nil => exact List.suffix_rfl
  | cons l levels ih =>
    rw [Stack.popTo]
    split
    · exact (ih _).trans (List.suffix_cons l levels)
    · exact List.suffix_rfl

theorem innermost_popTo_le (indent : Nat) (nodes : List Node) (levels : List Level) :
    Level.innermost (Stack.popTo indent nodes levels).levels ≤ indent := by
  induction levels generalizing nodes with
  | nil => exact Nat.zero_le indent
  | cons l levels ih =>
    rw [Stack.popTo]
    split
    · exact ih _
    next shallow => exact Nat.not_lt.1 shallow

theorem eq_cons_of_deeper? {indent : Nat} {rest : List Entry} {next : Entry}
    (h : deeper? indent rest = some next) : ∃ more, rest = next :: more ∧ indent < next.indent := by
  obtain ⟨head, deep⟩ := Option.filter_eq_some_iff.1 h
  obtain ⟨more, rfl⟩ := List.head?_eq_some_iff.1 head
  exact ⟨more, rfl, of_decide_eq_true deep⟩

section Step

variable {limit : Nat} {s t : Stack} {passed rest left : List Entry} {e : Entry}

theorem not_exceeds_of_deeper? (shallow : deeper? e.indent rest = none) :
    ∀ next ∈ rest.head?, ¬Exceeds limit passed e next := by
  intro next head h
  have := Option.filter_eq_none_iff.1 shallow next head
  exact this (decide_eq_true h.filled)

theorem exceeds_iff (owned : Owned passed s.levels) (level : e.indent = Level.innermost s.levels)
    (statement : e.IsStatement) {next : Entry} (deep : e.indent < next.indent) :
    Exceeds limit passed e next ↔ limit ≤ s.levels.length := by
  obtain ⟨length, nested⟩ := owned.innermost
  rw [← level] at length nested
  constructor
  · intro h
    exact length ▸ h.full
  · intro full
    exact ⟨deep, statement, nested, length.symm ▸ full⟩

theorem push_owned {prelude : Prelude} {opener : Position} (owned : Owned passed s.levels)
    (level : e.indent = Level.innermost s.levels) (statement : e.IsStatement) {next : Entry}
    (deep : deeper? e.indent rest = some next)
    (pushed : (s.push limit next.indent prelude e.start opener).map (·, rest) = .ok (t, left)) :
    left = rest ∧ Owned (e :: passed) t.levels ∧ ∀ next ∈ rest.head?, ¬Exceeds limit passed e next := by
  obtain ⟨more, rfl, filled⟩ := eq_cons_of_deeper? deep
  obtain ⟨u, opened, same⟩ := map_eq_ok_iff.1 pushed
  cases same
  unfold Stack.push at opened
  split at opened
  · cases opened
  next free =>
    cases opened
    refine ⟨rfl, owned.push level statement filled, ?_⟩
    rintro _ ⟨⟩ exceeds
    exact free ((exceeds_iff owned level statement filled).1 exceeds)

theorem push_exceeds {prelude : Prelude} {opener p : Position} (owned : Owned passed s.levels)
    (level : e.indent = Level.innermost s.levels) (statement : e.IsStatement) {next : Entry}
    (deep : deeper? e.indent rest = some next)
    (failed : (s.push limit next.indent prelude e.start opener).map (·, rest) =
      .error ⟨.nestingTooDeep, p⟩) :
    p = e.start ∧ ∃ next more, rest = next :: more ∧ Exceeds limit passed e next := by
  obtain ⟨more, rfl, filled⟩ := eq_cons_of_deeper? deep
  rw [map_eq_error_iff] at failed
  unfold Stack.push at failed
  split at failed
  next full =>
    cases failed
    exact ⟨rfl, next, more, rfl, (exceeds_iff owned level statement filled).2 full⟩
  · cases failed

theorem step_owned (owned : Owned passed s.levels) (low : Level.innermost s.levels ≤ e.indent)
    (stepped : step limit s e rest = .ok (t, left)) :
    ∃ taken, rest = taken ++ left ∧ (∀ r ∈ taken, e.indent < r.indent) ∧
      (taken = [] ∨ ¬e.IsStatement) ∧ Owned (taken.reverse ++ e :: passed) t.levels ∧
      ∀ next ∈ rest.head?, ¬Exceeds limit passed e next := by
  have past : Owned (e :: passed) s.levels := owned.append (List.forall_mem_singleton.2 low)
  unfold step at stepped
  split at stepped
  · cases stepped
  next placed =>
    have level : e.indent = Level.innermost s.levels := Nat.le_antisymm (Nat.not_lt.1 placed) low
    split at stepped
    next text inline kind shallow =>
      cases stepped
      exact ⟨[], rfl, List.forall_mem_nil _, .inl rfl, past, not_exceeds_of_deeper? shallow⟩
    · cases stepped
    next d kind =>
      cases stepped
      have deep : ∀ r ∈ rest.takeWhile (e.indent < ·.indent), e.indent < r.indent :=
        indent_lt_of_mem_takeWhile
      have other : ¬e.IsStatement := by simp [Entry.IsStatement, kind]
      refine ⟨_, List.takeWhile_append_dropWhile.symm, deep, .inr other, ?_, ?_⟩
      · apply past.append
        intro r mem
        exact low.trans (Nat.le_of_lt (deep r (List.mem_reverse.1 mem)))
      · exact fun next _ h => other h.statement
    next selector kind shallow =>
      cases stepped
      exact ⟨[], rfl, List.forall_mem_nil _, .inl rfl, past, not_exceeds_of_deeper? shallow⟩
    next selector next kind deep =>
      have statement : e.IsStatement := by simp [Entry.IsStatement, kind]
      obtain ⟨rfl, pushed, within⟩ := push_owned owned level statement deep stepped
      exact ⟨[], rfl, List.forall_mem_nil _, .inl rfl, pushed, within⟩
    next name params kind shallow =>
      cases stepped
      exact ⟨[], rfl, List.forall_mem_nil _, .inl rfl, past, not_exceeds_of_deeper? shallow⟩
    next name params next kind deep =>
      have statement : e.IsStatement := by simp [Entry.IsStatement, kind]
      obtain ⟨rfl, pushed, within⟩ := push_owned owned level statement deep stepped
      exact ⟨[], rfl, List.forall_mem_nil _, .inl rfl, pushed, within⟩

theorem step_exceeds {p : Position} (owned : Owned passed s.levels)
    (low : Level.innermost s.levels ≤ e.indent)
    (failed : step limit s e rest = .error ⟨.nestingTooDeep, p⟩) :
    p = e.start ∧ ∃ next more, rest = next :: more ∧ Exceeds limit passed e next := by
  unfold step at failed
  split at failed
  · cases failed
  next placed =>
    have level : e.indent = Level.innermost s.levels := Nat.le_antisymm (Nat.not_lt.1 placed) low
    split at failed
    · cases failed
    · cases failed
    · cases failed
    · cases failed
    next selector next kind deep =>
      exact push_exceeds owned level (by simp [Entry.IsStatement, kind]) deep failed
    · cases failed
    next name params next kind deep =>
      exact push_exceeds owned level (by simp [Entry.IsStatement, kind]) deep failed

end Step

/-! ## A whole pass -/

theorem FirstPast.cons {limit : Nat} {passed taken left : List Entry} {e e' : Entry}
    (deep : ∀ r ∈ taken, e.indent < r.indent) (other : taken = [] ∨ ¬e.IsStatement)
    (within : ∀ next ∈ (taken ++ left).head?, ¬Exceeds limit passed e next)
    (h : FirstPast limit (taken.reverse ++ e :: passed) left e') :
    FirstPast limit passed (e :: (taken ++ left)) e' := by
  obtain ⟨before, next, after, rfl, exceeds, first⟩ := h
  refine ⟨e :: (taken ++ before), next, after, by simp, by simpa using exceeds, ?_⟩
  intro earlier d next' later split short
  cases earlier with
  | nil =>
    obtain ⟨rfl, rest⟩ := List.cons.inj split
    exact within next' (by rw [rest]; rfl)
  | cons _ earlier =>
    obtain ⟨rfl, rest⟩ := List.cons.inj split
    obtain ⟨more, rfl, tail⟩ | ⟨more, rfl, tail⟩ := List.append_eq_append_iff.1 rest
    · have behind : more.length < before.length := by
        simp only [List.length_cons, List.length_append] at short
        omega
      have past := first more d next' later tail behind
      simpa using past
    · cases more with
      | nil =>
        have behind : 0 < before.length := by
          simp only [List.length_cons, List.length_append, List.length_nil] at short
          omega
        have past := first [] d next' later tail.symm behind
        simpa using past
      | cons r more =>
        -- What the declaration takes up lies in it.
        obtain ⟨rfl, -⟩ := List.cons.inj tail
        intro exceeds
        have several : earlier ++ d :: more ≠ [] := by simp
        refine other.resolve_left several (exceeds.nested e ?_)
        rw [List.reverse_cons, List.append_assoc]
        apply mem_owners
        · intro r mem
          exact deep r (List.mem_append_left _ (List.mem_reverse.1 mem))
        · exact deep d (List.mem_append_right _ List.mem_cons_self)

theorem run_firstPast {limit : Nat} {s : Stack} {passed es : List Entry} {p : Position}
    (owned : Owned passed s.levels) (failed : run limit s es = .error ⟨.nestingTooDeep, p⟩) :
    ∃ e, FirstPast limit passed es e ∧ p = e.start := by
  fun_induction run limit s es generalizing passed with
  | case1 => cases failed
  | case2 s e rest err refused =>
    cases failed
    obtain ⟨rfl, next, more, rfl, exceeds⟩ :=
      step_exceeds (owned.suffix (popTo_suffix _ _ _)) (innermost_popTo_le _ _ _) refused
    refine ⟨e, ⟨[], next, more, rfl, exceeds, ?_⟩, rfl⟩
    intro earlier e' next' later _ short
    exact absurd short (Nat.not_lt_zero _)
  | case3 s e rest r stepped ih =>
    obtain ⟨taken, split, deep, other, owned', within⟩ :=
      step_owned (owned.suffix (popTo_suffix _ _ _)) (innermost_popTo_le _ _ _) stepped
    obtain ⟨e', first, rfl⟩ := ih owned' failed
    subst split
    exact ⟨e', first.cons deep other within, rfl⟩

theorem cause_of_kindOf {content : List Char} {start : Position} {lines : List Line} {e : ParseError}
    (failed : kindOf content start lines = .error e) : e.cause = .unclosedComment := by
  unfold kindOf at failed
  split at failed
  · cases failed
  · split at failed
    · cases failed
      rfl
    · cases failed
  · cases failed
  · split at failed <;> cases failed

theorem cause_of_entriesOf {used : Option Char} {lines : List Line} {e : ParseError}
    (failed : entriesOf used lines = .error e) :
    e.cause = .unclosedComment ∨ e.cause = .mixedIndentation := by
  fun_induction entriesOf used lines with
  | case1 => cases failed
  | case2 used line lines content blank ih => exact ih failed
  | case3 used line lines indent content start visible uniform e' read =>
    cases failed
    exact .inl (cause_of_kindOf read)
  | case4 used line lines indent content start visible uniform kind rest read ih =>
    exact ih (map_eq_error_iff.1 failed)
  | case5 =>
    cases failed
    exact .inr rfl

/-- In an accepted tree at most as many blocks with content as the limit are nested one in the other,
and every block opens on the line of its statement, that of a rule at the end of the line. A text that is
refused because of the limit is so on the line of the first statement whose block exceeds it. -/
theorem parse_nesting (text : String) :
    (∀ sheet, Dialect.sugarss.parse text = .ok sheet →
      (∀ c, Node.Chain sheet.nodes c → (∀ n ∈ c, n.IsFilled) → c.length ≤ Sheet.maxNesting) ∧
      ∀ prelude start opener nodes, .block prelude start opener nodes ∈ sheet.walk →
        ∃ line ∈ linesOf (Text.dropByteOrderMark text.toList), OpensOn line prelude start opener) ∧
    ∀ p, Dialect.sugarss.parse text = .error ⟨.nestingTooDeep, p⟩ →
      ∃ es, entries (Text.dropByteOrderMark text.toList) = .ok es ∧
        ∃ e, FirstPast Sheet.maxNesting [] es e ∧ p.line = e.start.line := by
  constructor
  · intro sheet parsed
    obtain ⟨es, scanned, made⟩ := entries_of_parse parsed
    refine ⟨length_chain_le made, ?_⟩
    intro prelude start opener nodes mem
    exact opensOn_of_entries scanned made mem
  · intro p failed
    cases scanned : entries (Text.dropByteOrderMark text.toList) with
    | error e =>
      rw [Dialect.parse, Dialect.flavor?] at failed
      simp only [Indented.parse, scanned] at failed
      cases failed
      rcases cause_of_entriesOf scanned with other | other <;> cases other
    | ok es =>
      rw [parse_of_entries scanned, map_eq_error_iff, nodesOf_eq_run] at failed
      obtain ⟨e, first, rfl⟩ := run_firstPast (Owned.nil []) failed
      exact ⟨es, rfl, e, first, rfl⟩

/-! ## A staircase -/

def stair (k : Nat) : List Char :=
  List.replicate k ' ' ++ ['a']

def stairs (k : Nat) : Nat → List (List Char)
  | 0 => []
  | n + 1 => stair k :: stairs (k + 1) n

def staircase (n : Nat) : List Char :=
  stair 0 ++ (stairs 1 n).flatMap ('\n' :: ·)

def treads (k : Nat) : Nat → List Entry
  | 0 => []
  | n + 1 => ⟨k, ⟨k + 1, k + 1⟩, stair k, .selector "a"⟩ :: treads (k + 1) n

def tower (k : Nat) : Nat → List Node
  | 0 => []
  | n + 1 => [.block (.selector "a") ⟨k + 1, k + 1⟩ ⟨k + 1, k + 2⟩ (tower (k + 1) n)]

theorem stair_cut (k : Nat) : (stair k).takeWhile isIndent = List.replicate k ' ' ∧
    (stair k).dropWhile isIndent = ['a'] := by
  have blanks : ∀ c ∈ List.replicate k ' ', isIndent c = true := by
    intro c mem
    rw [List.eq_of_mem_replicate mem]
    rfl
  rw [stair, List.takeWhile_append_of_pos blanks, List.dropWhile_append_of_pos blanks]
  exact ⟨List.append_nil _, rfl⟩

theorem exists_of_mem_stairs {row : List Char} {k n : Nat} (mem : row ∈ stairs k n) :
    ∃ j, row = stair j := by
  induction n generalizing k with
  | zero => cases mem
  | succ n ih =>
    rcases List.mem_cons.1 mem with rfl | mem
    · exact ⟨k, rfl⟩
    · exact ih mem

theorem linesOf_staircase (n : Nat) : linesOf (staircase n) =
    ((stairs 0 (n + 1)).zipIdx 1).map fun row => ⟨row.2, row.1⟩ := by
  have rows : splitLines (staircase n) = stairs 0 (n + 1) := by
    rw [splitLines_eq_splitOn]
    apply splitOn_flatMap (by decide)
    intro row mem
    obtain ⟨k, rfl⟩ := exists_of_mem_stairs mem
    simp [stair]
  rw [linesOf, rows]
  apply List.map_congr_left
  rintro ⟨row, number⟩ mem
  obtain ⟨k, rfl⟩ := exists_of_mem_stairs (List.fst_mem_of_mem_zipIdx mem)
  have kept : dropReturn (stair k) = stair k := by simp [dropReturn, stair]
  rw [kept]

theorem indentsWith_blanks {used : Option Char} (known : used = none ∨ used = some ' ') (k : Nat) :
    indentsWith used (List.replicate k ' ') = true ∧
      (used.or (List.replicate k ' ').head? = none ∨
        used.or (List.replicate k ' ').head? = some ' ') := by
  rcases known with rfl | rfl <;> cases k <;> simp [indentsWith, List.replicate_succ]

theorem entriesOf_stairs (k n : Nat) {used : Option Char} (known : used = none ∨ used = some ' ') :
    entriesOf used (((stairs k n).zipIdx (k + 1)).map fun row => ⟨row.2, row.1⟩) =
      .ok (treads k n) := by
  induction n generalizing k used with
  | zero => rw [stairs, List.zipIdx_nil, List.map_nil, entriesOf, treads]
  | succ n ih =>
    obtain ⟨blanks, content⟩ := stair_cut k
    obtain ⟨uniform, known⟩ := indentsWith_blanks known k
    have visible : (Text.trimEnd ((stair k).dropWhile isIndent)).isEmpty = false := by
      rw [content]
      rfl
    have read (start : Position) (lines : List Line) :
        kindOf (Text.trimEnd ((stair k).dropWhile isIndent)) start lines =
          .ok (.selector "a", lines) := by
      rw [content]
      rfl
    rw [← blanks] at uniform
    rw [stairs, List.zipIdx_cons, List.map_cons, entriesOf_cons visible uniform (read _ _), blanks,
      ih (k + 1) known, List.length_replicate]
    rfl

theorem le_indent_of_mem_treads {r : Entry} {k n : Nat} (mem : r ∈ treads k n) : k ≤ r.indent := by
  induction n generalizing k with
  | zero => cases mem
  | succ n ih =>
    rcases List.mem_cons.1 mem with rfl | mem
    · exact Nat.le_refl k
    · exact (Nat.le_succ k).trans (ih mem)

theorem nodesOf_treads {depth k n : Nat} (room : n ≤ depth + 1) :
    nodesOf depth k (treads k n) = .ok (tower k n) := by
  induction n generalizing depth k with
  | zero => rw [treads, nodesOf, tower]
  | succ n ih =>
    have deep : ∀ r ∈ treads (k + 1) n, k < r.indent := fun r mem => le_indent_of_mem_treads mem
    have taken : (treads (k + 1) n).takeWhile (k < ·.indent) = treads (k + 1) n := by
      rw [List.takeWhile_eq_self_iff]
      simpa using deep
    have dropped : (treads (k + 1) n).dropWhile (k < ·.indent) = [] := by
      rw [List.dropWhile_eq_nil_iff]
      simpa using deep
    have block : nodesOf.blockOf depth ⟨k + 1, k + 1⟩ (treads (k + 1) n) = .ok (tower (k + 1) n) := by
      cases n with
      | zero => rw [treads, nodesOf.blockOf, tower]
      | succ n =>
        obtain ⟨below, rfl⟩ : ∃ below, depth = below + 1 := ⟨depth - 1, by omega⟩
        have inside := ih (k := k + 1) (Nat.le_of_succ_le_succ room)
        rw [treads] at inside ⊢
        rw [blockOf_succ]
        exact inside
    refine (nodesOf_cons depth ⟨k, ⟨k + 1, k + 1⟩, stair k, .selector "a"⟩ _).trans ?_
    rw [taken, dropped, nodeOf, nodesOf]
    dsimp only
    rw [block]
    rfl

theorem chain_tower (k n : Nat) : ∃ c, Node.Chain (tower k n) c ∧ c.length = n := by
  induction n generalizing k with
  | zero => exact ⟨[], .nil _, rfl⟩
  | succ n ih =>
    obtain ⟨c, chain, length⟩ := ih (k + 1)
    exact ⟨_ :: c, .cons List.mem_cons_self rfl chain, congrArg (· + 1) length⟩

theorem parse_staircase : ∃ sheet,
    Dialect.sugarss.parse (String.ofList (staircase 128)) = .ok sheet ∧
    ∃ c, Node.Chain sheet.nodes c ∧ Sheet.maxNesting < c.length := by
  have scanned : entries (Text.dropByteOrderMark (String.ofList (staircase 128)).toList) =
      .ok (treads 0 129) := by
    rw [String.toList_ofList]
    have bare : Text.dropByteOrderMark (staircase 128) = staircase 128 := rfl
    rw [bare, entries, linesOf_staircase]
    exact entriesOf_stairs 0 129 (.inl rfl)
  obtain ⟨c, chain, length⟩ := chain_tower 0 129
  refine ⟨⟨tower 0 129⟩, ?_, c, chain, ?_⟩
  · have made : nodesOf Sheet.maxNesting 0 (treads 0 129) = .ok (tower 0 129) :=
      nodesOf_treads (Nat.le_refl 129)
    rw [parse_of_entries scanned, made]
    rfl
  · rw [length]
    exact Nat.lt_succ_self 128

end Indented

end SheetLint
