import SheetLint.Proofs.Tree
import SheetLint.Proofs.Value.Order
import SheetLint.Rule.BlockNoEmpty
import SheetLint.Rule.CommentNoEmpty

namespace SheetLint

namespace Node

/-- Whether a node begins, opens its block or has a character of its value at a place. Newlines in a
value do not count. -/
inductive At : Node → Position → Prop
  | start (n : Node) : n.At n.start
  | opener (prelude : Prelude) (start opener : Position) (nodes : List Node) :
    (Node.block prelude start opener nodes).At opener
  | value {d : Declaration} {i : Nat} {c : Char} (char : d.CharAt i c) (visible : c ≠ '\n') :
    (Node.declaration d).At (d.valuePosition i)

def Precedes (m n : Node) : Prop :=
  ∀ p q, m.At p → n.At q → p.Before q

def Leads (m n : Node) : Prop :=
  m.start.Before n.start ∧ ∀ b, m.block? = some b → b.1.Before n.start

theorem Precedes.leads {m n : Node} (h : m.Precedes n) : m.Leads n := by
  refine ⟨h _ _ (.start m) (.start n), ?_⟩
  intro b block
  cases m with
  | block prelude start opener nodes =>
    cases block
    exact h _ _ (.opener prelude start opener nodes) (.start n)
  | comment | declaration | statement => cases block

mutual

theorem walk_isInfix {n : Node} : ∀ m : Node, n ∈ m.walk → n.walk <:+: m.walk
  | .block prelude start opener nodes, mem => by
    rw [walk, List.mem_cons] at mem
    rcases mem with rfl | mem
    · exact List.infix_rfl
    · rw [walk]
      exact (walk_isInfix_walkAll nodes mem).trans (List.suffix_cons _ _).isInfix
  | .comment c, mem => by cases List.mem_singleton.1 mem; exact List.infix_rfl
  | .declaration d, mem => by cases List.mem_singleton.1 mem; exact List.infix_rfl
  | .statement prelude start, mem => by cases List.mem_singleton.1 mem; exact List.infix_rfl

theorem walk_isInfix_walkAll {n : Node} : ∀ ns : List Node, n ∈ walkAll ns → n.walk <:+: walkAll ns
  | [], mem => by cases mem
  | m :: ns, mem => by
    rw [walkAll, List.mem_append] at mem
    rw [walkAll]
    rcases mem with mem | mem
    · exact (walk_isInfix m mem).trans (List.prefix_append _ _).isInfix
    · exact (walk_isInfix_walkAll ns mem).trans (List.suffix_append _ _).isInfix

end

end Node

structure Sheet.Ordered (s : Sheet) : Prop where
  start : s.walk.Pairwise fun m n => m.start.Before n.start
  opener : ∀ prelude start opener nodes, Node.block prelude start opener nodes ∈ s.walk →
    (start = opener ∨ start.Before opener) ∧ ∀ n ∈ Node.walkAll nodes, opener.Before n.start
  value : ∀ d ∈ s.declarations, d.start.Before d.valueStart

theorem Sheet.mem_declarations {s : Sheet} {d : Declaration} :
    d ∈ s.declarations ↔ .declaration d ∈ s.walk := by
  unfold declarations
  rw [List.mem_filterMap]
  constructor
  · rintro ⟨n, mem, same⟩
    cases n with
    | declaration d' =>
      cases same
      exact mem
    | comment | statement | block => cases same
  · intro mem
    exact ⟨_, mem, rfl⟩

theorem Sheet.ordered_of_leads {s : Sheet} (leads : s.walk.Pairwise Node.Leads)
    (opener : ∀ prelude start opener nodes, Node.block prelude start opener nodes ∈ s.walk →
      start = opener ∨ start.Before opener)
    (value : ∀ d, .declaration d ∈ s.walk → d.start.Before d.valueStart) : s.Ordered := by
  refine ⟨leads.imp And.left, ?_, fun d mem => value d (mem_declarations.1 mem)⟩
  intro prelude start opener' nodes mem
  refine ⟨opener prelude start opener' nodes mem, ?_⟩
  intro n inside
  -- In pre-order what lies in a node stands right behind it.
  have within := leads.sublist (Node.walk_isInfix_walkAll s.nodes mem).sublist
  rw [Node.walk, List.pairwise_cons] at within
  exact (within.1 n inside).2 _ rfl

/-! ## Findings in order -/

namespace Rule

theorem pairwise_findings {ns : List Node} (precedes : ns.Pairwise Node.Precedes)
    {findings : Node → List Finding} (here : ∀ n ∈ ns, ∀ f ∈ findings n, n.At f.pos)
    (each : ∀ n ∈ ns, (findings n).Pairwise Finding.Before) :
    (ns.flatMap findings).Pairwise Finding.Before := by
  refine List.pairwise_flatMap.2 ⟨each, precedes.imp_of_mem ?_⟩
  intro m n first second before f mem g mem'
  exact before _ _ (here m first f mem) (here n second g mem')

theorem pairwise_filterMap {ns : List Node} (precedes : ns.Pairwise Node.Precedes)
    {finding? : Node → Option Finding} (here : ∀ n f, finding? n = some f → n.At f.pos) :
    (ns.filterMap finding?).Pairwise Finding.Before := by
  rw [List.filterMap_eq_flatMap_toList]
  apply pairwise_findings precedes
  · intro n _ f mem
    exact here n f (Option.mem_toList.1 mem)
  · intro n _
    cases finding? n with
    | none => exact .nil
    | some f => exact List.pairwise_singleton _ f

theorem pairwise_declarations {sheet : Sheet} (precedes : sheet.walk.Pairwise Node.Precedes)
    {findings : Declaration → List Finding}
    (here : ∀ d, ∀ f ∈ findings d, (Node.declaration d).At f.pos)
    (each : ∀ d, .declaration d ∈ sheet.walk → (findings d).Pairwise Finding.Before) :
    (sheet.declarations.flatMap findings).Pairwise Finding.Before := by
  refine List.pairwise_flatMap.2 ⟨fun d mem => each d (Sheet.mem_declarations.1 mem), ?_⟩
  refine List.pairwise_filterMap.2 (precedes.imp ?_)
  intro m n before d first e second f mem g mem'
  cases m with
  | comment | statement | block => cases first
  | declaration d =>
    cases n with
    | comment | statement | block => cases second
    | declaration e =>
      cases first
      cases second
      exact before _ _ (here d f mem) (here e g mem')

theorem at_of_emptyBlock? {n : Node} {f : Finding} (h : emptyBlock? n = some f) : n.At f.pos := by
  unfold emptyBlock? at h
  split at h
  · cases h
    exact .opener _ _ _ _
  · cases h

theorem at_of_emptyComment? {n : Node} {f : Finding} (h : emptyComment? n = some f) :
    n.At f.pos := by
  unfold emptyComment? at h
  split at h
  · split at h
    · cases h
      exact .start _
    · cases h
  · cases h

theorem at_of_mem_malformedColors {d : Declaration} {f : Finding} (mem : f ∈ malformedColors d) :
    (Node.declaration d).At f.pos := by
  obtain ⟨i, hash, pos⟩ := charAt_of_mem_malformedColors mem
  rw [pos]
  exact .value hash (by decide)

theorem at_of_mem_zeroLengths {d : Declaration} {f : Finding} (mem : f ∈ zeroLengths d) :
    (Node.declaration d).At f.pos := by
  obtain ⟨i, unit, pos⟩ := unitAt_of_mem_zeroLengths mem
  obtain ⟨c, char, visible⟩ := unit.charAt
  rw [pos]
  exact .value char visible

theorem findings_pairwise {sheet : Sheet} (precedes : sheet.walk.Pairwise Node.Precedes)
    (increasing : ∀ d, .declaration d ∈ sheet.walk → d.Increasing) :
    ∀ rule ∈ [blockNoEmpty, commentNoEmpty, colorNoInvalidHex, lengthZeroNoUnit], ∀ context,
      (rule.check context sheet).findings.Pairwise Finding.Before := by
  simp only [List.forall_mem_cons, List.not_mem_nil, false_implies, implies_true, and_true]
  refine ⟨?_, ?_, ?_, ?_⟩
  · intro context
    exact pairwise_filterMap precedes fun n f => at_of_emptyBlock?
  · intro context
    exact pairwise_filterMap precedes fun n f => at_of_emptyComment?
  · intro context
    exact pairwise_declarations precedes (fun d f => at_of_mem_malformedColors)
      fun d mem => malformedColors_pairwise (increasing d mem)
  · intro context
    exact pairwise_declarations precedes (fun d f => at_of_mem_zeroLengths)
      fun d mem => zeroLengths_pairwise (increasing d mem)

end Rule

end SheetLint
