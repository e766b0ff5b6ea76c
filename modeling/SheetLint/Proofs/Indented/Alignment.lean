import SheetLint.Parse
import SheetLint.Proofs.Indented.Levels
import SheetLint.Proofs.Text.Trim
import SheetLint.Proofs.Tree

namespace SheetLint

inductive Aligned : Nat → List Node → Prop
  | nil {column : Nat} : Aligned column []
  | leaf {column : Nat} {n : Node} {ns : List Node} (start : n.start.column = column)
      (bare : n.block? = none) (more : Aligned column ns) : Aligned column (n :: ns)
  | block {column deeper : Nat} {prelude : Prelude} {start opener : Position} {inner ns : List Node}
      (starts : start.column = column) (deep : column < deeper) (inside : Aligned deeper inner)
      (more : Aligned column ns) : Aligned column (.block prelude start opener inner :: ns)

namespace Aligned

theorem column_eq {column : Nat} {ns : List Node} (h : Aligned column ns) :
    ∀ n ∈ ns, n.start.column = column := by
  induction h with
  | nil => nofun
  | leaf start bare more ih =>
    intro n mem
    rcases List.mem_cons.1 mem with rfl | mem
    · exact start
    · exact ih n mem
  | block starts deep inside more _ ih =>
    intro n mem
    rcases List.mem_cons.1 mem with rfl | mem
    · exact starts
    · exact ih n mem

theorem of_mem_walkAll {column : Nat} {ns : List Node} (h : Aligned column ns) :
    ∀ n ∈ Node.walkAll ns, ∀ b, n.block? = some b →
      ∃ deeper, n.start.column < deeper ∧ Aligned deeper b.2 := by
  induction h with
  | nil => nofun
  | @leaf column n ns start bare more ih =>
    have alone : n.walk = [n] := by
      cases n with
      | block => cases bare
      | _ => rfl
    intro m mem b found
    rw [Node.walkAll, alone, List.singleton_append, List.mem_cons] at mem
    rcases mem with rfl | mem
    · rw [bare] at found
      cases found
    · exact ih m mem b found
  | @block column deeper prelude start opener inner ns starts deep inside more ih ih' =>
    intro m mem b found
    rw [Node.walkAll, Node.walk, List.cons_append, List.mem_cons, List.mem_append] at mem
    rcases mem with rfl | mem | mem
    · cases found
      exact ⟨deeper, lt_of_eq_of_lt starts deep, inside⟩
    · exact ih m mem b found
    · exact ih' m mem b found

end Aligned

namespace Indented

def Entry.Sits (e : Entry) : Prop :=
  e.start.column = e.indent + 1 ∧ ∀ d, e.kind = .declaration d → d.start = e.start

theorem start_of_declaration? {content : List Char} {start : Position} {d : Declaration}
    (h : declaration? content start = some d) : d.start = start := by
  unfold declaration? at h
  split at h
  · cases h
  · simp only at h
    split at h
    · cases h
    · cases h
      rfl

theorem declaration_of_kindOf {content : List Char} {start : Position} {lines rest : List Line}
    {d : Declaration} (h : kindOf content start lines = .ok (.declaration d, rest)) :
    declaration? content start = some d := by
  unfold kindOf at h
  split at h
  · cases h
  · split at h <;> cases h
  · cases h
  · split at h
    next found =>
      cases h
      exact found
    next => cases h

theorem suffix_of_commentBody? {tail : List Char} {lines : List Line} {r : List Char × List Line}
    (h : commentBody? tail lines = some r) : r.2 <:+ lines := by
  fun_induction commentBody? tail lines generalizing r with
  | case1 =>
    obtain ⟨body, -, rfl⟩ := Option.map_eq_some_iff.1 h
    exact List.suffix_rfl
  | case2 =>
    cases h
    exact List.suffix_rfl
  | case3 tail line lines opened ih =>
    obtain ⟨r', read, rfl⟩ := Option.map_eq_some_iff.1 h
    exact (ih read).trans (List.suffix_cons line lines)

theorem suffix_of_kindOf {content : List Char} {start : Position} {lines : List Line}
    {r : Entry.Kind × List Line} (h : kindOf content start lines = .ok r) : r.2 <:+ lines := by
  unfold kindOf at h
  split at h
  · cases h
    exact List.suffix_rfl
  · split at h
    · cases h
    next body =>
      cases h
      exact suffix_of_commentBody? body
  · cases h
    exact List.suffix_rfl
  · split at h <;> cases h <;> exact List.suffix_rfl

structure Entry.From (e : Entry) (line : Line) : Prop where
  indent : e.indent = (line.chars.takeWhile isIndent).length
  start : e.start = ⟨line.number, e.indent + 1⟩
  raw : e.raw = line.chars
  kind : ∃ lines rest,
    kindOf (Text.trimEnd (line.chars.dropWhile isIndent)) e.start lines = .ok (e.kind, rest)

theorem entriesOf_cons {used : Option Char} {line : Line} {lines rest : List Line}
    {kind : Entry.Kind}
    (visible : (Text.trimEnd (line.chars.dropWhile isIndent)).isEmpty = false)
    (uniform : indentsWith used (line.chars.takeWhile isIndent) = true)
    (read : kindOf (Text.trimEnd (line.chars.dropWhile isIndent))
      ⟨line.number, (line.chars.takeWhile isIndent).length + 1⟩ lines = .ok (kind, rest)) :
    entriesOf used (line :: lines) =
      (entriesOf (used.or (line.chars.takeWhile isIndent).head?) rest).map
        (⟨(line.chars.takeWhile isIndent).length,
          ⟨line.number, (line.chars.takeWhile isIndent).length + 1⟩, line.chars, kind⟩ :: ·) := by
  rw [entriesOf]
  simp only [visible, uniform, Bool.false_eq_true, if_false, if_true]
  split
  next e failed =>
    rw [read] at failed
    cases failed
  next kind' rest' read' =>
    rw [read] at read'
    cases read'
    rfl

theorem entriesOf_blank {used : Option Char} {line : Line} {lines : List Line}
    (blank : (Text.trimEnd (line.chars.dropWhile isIndent)).isEmpty = true) :
    entriesOf used (line :: lines) = entriesOf used lines := by
  rw [entriesOf]
  simp only [blank, if_true]

theorem from_of_mem_entriesOf (used : Option Char) (lines : List Line) :
    ∀ es, entriesOf used lines = .ok es → ∀ e ∈ es, ∃ line ∈ lines, e.From line := by
  fun_induction entriesOf used lines with
  | case1 =>
    intro es h
    cases h
    nofun
  | case2 used line lines content blank ih =>
    intro es h e mem
    obtain ⟨line', within, origin⟩ := ih es h e mem
    exact ⟨line', .tail _ within, origin⟩
  | case3 => nofun
  | case4 used line lines indent content start visible uniform kind rest read ih =>
    intro es h
    obtain ⟨more, later, rfl⟩ := map_eq_ok_iff.1 h
    intro e mem
    rcases List.mem_cons.1 mem with rfl | mem
    · exact ⟨line, List.mem_cons_self, rfl, rfl, rfl, lines, rest, read⟩
    · obtain ⟨line', within, origin⟩ := ih more later e mem
      exact ⟨line', .tail _ ((suffix_of_kindOf read).subset within), origin⟩
  | case5 => nofun

theorem content_ne_nil (used : Option Char) (lines : List Line) :
    ∀ es, entriesOf used lines = .ok es →
      ∀ e ∈ es, Text.trimEnd (e.raw.dropWhile isIndent) ≠ [] := by
  fun_induction entriesOf used lines with
  | case1 =>
    intro es h
    cases h
    nofun
  | case2 used line lines content blank ih => exact ih
  | case3 => nofun
  | case4 used line lines indent content start visible uniform kind rest read ih =>
    intro es h
    obtain ⟨more, later, rfl⟩ := map_eq_ok_iff.1 h
    refine List.forall_mem_cons.2 ⟨?_, ih more later⟩
    exact fun empty => visible (List.isEmpty_iff.2 empty)
  | case5 => nofun

theorem Entry.trimEnd_raw (e : Entry) (kept : Text.trimEnd (e.raw.dropWhile isIndent) ≠ []) :
    Text.trimEnd e.raw = e.raw.takeWhile isIndent ++ Text.trimEnd (e.raw.dropWhile isIndent) := by
  conv_lhs => rw [← List.takeWhile_append_dropWhile (p := isIndent) (l := e.raw)]
  exact Text.dropEndWhile_append kept

theorem Entry.From.sits {e : Entry} {line : Line} (h : e.From line) : e.Sits := by
  refine ⟨by rw [h.start], ?_⟩
  intro d kind
  obtain ⟨lines, rest, read⟩ := h.kind
  rw [kind] at read
  exact start_of_declaration? (declaration_of_kindOf read)

theorem sits_of_entriesOf (used : Option Char) (lines : List Line) :
    ∀ es, entriesOf used lines = .ok es → ∀ e ∈ es, e.Sits := by
  intro es h e mem
  obtain ⟨line, -, origin⟩ := from_of_mem_entriesOf used lines es h e mem
  exact origin.sits

theorem aligned_cons {depth : Nat} {e : Entry} {inner : List Entry} {n : Node} {ns : List Node}
    (sits : e.Sits) (made : Makes depth e inner n) (more : Aligned (e.indent + 1) ns)
    (deep : ∀ r ∈ inner, e.indent < r.indent)
    (inside : ∀ below first, inner.head? = some first → ∀ ms,
      nodesOf below first.indent inner = .ok ms → Aligned (first.indent + 1) ms) :
    Aligned (e.indent + 1) (n :: ns) := by
  cases made with
  | comment text inline => exact .leaf sits.1 rfl more
  | declaration kind =>
    refine .leaf ?_ rfl more
    rw [← sits.1, ← sits.2 _ kind]
    rfl
  | statement prelude => exact .leaf sits.1 rfl more
  | empty prelude opener => exact .block sits.1 (Nat.lt_succ_self _) .nil more
  | block prelude opener room within =>
    exact .block sits.1 (Nat.succ_lt_succ (deep _ List.mem_cons_self)) (inside _ _ rfl _ within) more

theorem aligned_of_nodesOf {depth indent : Nat} {entries : List Entry} {ns : List Node}
    (sits : ∀ e ∈ entries, e.Sits) (made : nodesOf depth indent entries = .ok ns) :
    Aligned (indent + 1) ns := by
  revert sits
  refine nodesOf_induction ?_ ?_ made
  · intro depth indent _
    exact .nil
  · intro depth e inner outer n ns deep shallow node within later sits
    simp only [List.forall_mem_cons, List.forall_mem_append] at sits
    obtain ⟨own, deeper, others⟩ := sits
    refine aligned_cons own (makes_of_nodeOf node) (later others) deep ?_
    intro below first _ ms inside
    exact within below first.indent ms inside deeper

/-- The tree of an indented sheet, or its first error, is what the flat pass over its entries gives.
In a tree that is accepted, the outermost nodes begin in the first column, the nodes of one container
in one column, and the nodes of a block to the right of its owner. -/
theorem parse_eq_run {text : String} {es : List Entry}
    (scanned : entries (Text.dropByteOrderMark text.toList) = .ok es) :
    Dialect.sugarss.parse text = (run Sheet.maxNesting .empty es).map Sheet.mk ∧
      ∀ sheet, Dialect.sugarss.parse text = .ok sheet →
        (∀ n ∈ sheet.nodes, n.start.column = 1) ∧
        (∀ nodes ∈ sheet.containers, ∀ m ∈ nodes, ∀ n ∈ nodes, m.start.column = n.start.column) ∧
        ∀ n ∈ sheet.walk, ∀ b, n.block? = some b → ∀ m ∈ b.2, n.start.column < m.start.column := by
  have parsed : Dialect.sugarss.parse text = (nodesOf Sheet.maxNesting 0 es).map Sheet.mk := by
    rw [Dialect.parse, Dialect.flavor?]
    simp only [Indented.parse, scanned]
  constructor
  · rw [parsed, nodesOf_eq_run]
  · intro sheet accepted
    rw [parsed] at accepted
    obtain ⟨nodes, made, rfl⟩ := map_eq_ok_iff.1 accepted
    have aligned : Aligned 1 nodes := aligned_of_nodesOf (sits_of_entriesOf _ _ es scanned) made
    refine ⟨aligned.column_eq, ?_, ?_⟩
    · intro container mem m hm n hn
      rcases List.mem_cons.1 mem with rfl | mem
      · rw [aligned.column_eq m hm, aligned.column_eq n hn]
      · obtain ⟨owner, within, found⟩ := List.mem_filterMap.1 mem
        obtain ⟨b, block, rfl⟩ := Option.map_eq_some_iff.1 found
        obtain ⟨deeper, -, inside⟩ := aligned.of_mem_walkAll owner within b block
        rw [inside.column_eq m hm, inside.column_eq n hn]
    · intro n within b block m hm
      obtain ⟨deeper, right, inside⟩ := aligned.of_mem_walkAll n within b block
      rw [inside.column_eq m hm]
      exact right

def dedented : List Entry :=
  [⟨0, ⟨1, 1⟩, ['a'], .selector "a"⟩,
    ⟨1, ⟨2, 2⟩, [' ', 'b', ':', ' ', 'c'], .declaration ⟨"b", "c", false, ⟨2, 2⟩, ⟨2, 5⟩⟩⟩,
    ⟨2, ⟨3, 3⟩, [' ', ' ', 'd'], .selector "d"⟩,
    ⟨0, ⟨4, 1⟩, ['e', ':', ' ', 'f'], .declaration ⟨"e", "f", false, ⟨4, 1⟩, ⟨4, 4⟩⟩⟩]

def astray : List Entry :=
  [⟨0, ⟨1, 1⟩, ['a'], .selector "a"⟩,
    ⟨2, ⟨2, 3⟩, [' ', ' ', 'b', ':', ' ', 'c'], .declaration ⟨"b", "c", false, ⟨2, 3⟩, ⟨2, 6⟩⟩⟩,
    ⟨1, ⟨3, 2⟩, [' ', 'd', ':', ' ', 'e'], .declaration ⟨"d", "e", false, ⟨3, 2⟩, ⟨3, 5⟩⟩⟩]

theorem parse_eq_run_nested :
    entries (Text.dropByteOrderMark "a\n b: c\n  d\ne: f".toList) = .ok dedented ∧
    Dialect.sugarss.parse "a\n b: c\n  d\ne: f" =
      .ok ⟨[.block (.selector "a") ⟨1, 1⟩ ⟨1, 2⟩ [.declaration ⟨"b", "c\n  d", false, ⟨2, 2⟩, ⟨2, 5⟩⟩],
        .declaration ⟨"e", "f", false, ⟨4, 1⟩, ⟨4, 4⟩⟩]⟩ ∧
    entries (Text.dropByteOrderMark "a\n  b: c\n d: e".toList) = .ok astray ∧
    Dialect.sugarss.parse "a\n  b: c\n d: e" = .error ⟨.unexpectedIndentation, ⟨3, 1⟩⟩ ∧
    ParseError.message ⟨.unexpectedIndentation, ⟨3, 1⟩⟩ = "Unexpected indentation" := by
  have lines : linesOf (Text.dropByteOrderMark "a\n b: c\n  d\ne: f".toList) =
      [⟨1, ['a']⟩, ⟨2, [' ', 'b', ':', ' ', 'c']⟩, ⟨3, [' ', ' ', 'd']⟩, ⟨4, ['e', ':', ' ', 'f']⟩] := by
    decide
  have scanned : entries (Text.dropByteOrderMark "a\n b: c\n  d\ne: f".toList) = .ok dedented := by
    rw [entries, lines, entriesOf_cons rfl rfl rfl, entriesOf_cons rfl rfl rfl,
      entriesOf_cons rfl rfl rfl, entriesOf_cons rfl rfl rfl, entriesOf]
    rfl
  have lines' : linesOf (Text.dropByteOrderMark "a\n  b: c\n d: e".toList) =
      [⟨1, ['a']⟩, ⟨2, [' ', ' ', 'b', ':', ' ', 'c']⟩, ⟨3, [' ', 'd', ':', ' ', 'e']⟩] := by decide
  have scanned' : entries (Text.dropByteOrderMark "a\n  b: c\n d: e".toList) = .ok astray := by
    rw [entries, lines', entriesOf_cons rfl rfl rfl, entriesOf_cons rfl rfl rfl,
      entriesOf_cons rfl rfl rfl, entriesOf]
    rfl
  refine ⟨scanned, (parse_eq_run scanned).1.trans ?_, scanned', (parse_eq_run scanned').1.trans ?_, rfl⟩
  · have passed : run Sheet.maxNesting .empty dedented = .ok _ :=
      calc run Sheet.maxNesting .empty dedented
        _ = run Sheet.maxNesting ⟨[], [⟨1, .selector "a", ⟨1, 1⟩, ⟨1, 2⟩, []⟩]⟩ (dedented.drop 1) :=
          run_cons ..
        _ = run Sheet.maxNesting
              ⟨[.declaration ⟨"b", "c\n  d", false, ⟨2, 2⟩, ⟨2, 5⟩⟩],
                [⟨1, .selector "a", ⟨1, 1⟩, ⟨1, 2⟩, []⟩]⟩ (dedented.drop 3) :=
          run_cons ..
        _ = run Sheet.maxNesting _ [] := run_cons ..
        _ = .ok _ := run.eq_1 ..
    rw [passed]
    rfl
  · have refused : run Sheet.maxNesting .empty astray = .error _ :=
      calc run Sheet.maxNesting .empty astray
        _ = run Sheet.maxNesting ⟨[], [⟨2, .selector "a", ⟨1, 1⟩, ⟨1, 2⟩, []⟩]⟩ (astray.drop 1) :=
          run_cons ..
        _ = run Sheet.maxNesting
              ⟨[.declaration ⟨"b", "c", false, ⟨2, 3⟩, ⟨2, 6⟩⟩],
                [⟨2, .selector "a", ⟨1, 1⟩, ⟨1, 2⟩, []⟩]⟩ (astray.drop 2) :=
          run_cons ..
        _ = .error _ := run_cons ..
    rw [refused]
    rfl

end Indented

end SheetLint
