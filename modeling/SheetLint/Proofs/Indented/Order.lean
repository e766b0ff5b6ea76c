import SheetLint.Proofs.Indented.Values
import SheetLint.Proofs.Places

namespace SheetLint

namespace Indented

/-! ## Entries in order -/

theorem linesOf_pairwise (text : List Char) :
    (linesOf text).Pairwise fun a b => a.number < b.number := by
  have numbers : (((splitLines text).zipIdx 1).map Prod.snd).Pairwise (· < ·) := by
    rw [List.zipIdx_map_snd]
    exact List.pairwise_lt_range'
  rw [List.pairwise_map] at numbers
  exact List.pairwise_map.2 numbers

theorem entriesOf_pairwise {used : Option Char} {lines : List Line}
    (pairs : lines.Pairwise fun a b => a.number < b.number) :
    ∀ es, entriesOf used lines = .ok es → es.Pairwise fun a b => a.start.line < b.start.line := by
  fun_induction entriesOf used lines with
  | case1 =>
    intro es h
    cases h
    exact .nil
  | case2 used line lines content blank ih => exact ih (List.pairwise_cons.1 pairs).2
  | case3 =>
    intro es h
    cases h
  | case4 used line lines indent content start visible uniform kind rest read ih =>
    intro es h
    obtain ⟨more, later, rfl⟩ := map_eq_ok_iff.1 h
    have remaining := suffix_of_kindOf read
    obtain ⟨below, pairs⟩ := List.pairwise_cons.1 pairs
    refine .cons ?_ (ih (pairs.sublist remaining.sublist) more later)
    intro e mem
    obtain ⟨line', within, origin⟩ := from_of_mem_entriesOf _ rest more later e mem
    rw [origin.start]
    exact below line' (remaining.subset within)
  | case5 =>
    intro es h
    cases h

/-! ## Nodes and their entries -/

theorem before_valueStart_of_declaration? {content : List Char} {start : Position} {d : Declaration}
    (h : declaration? content start = some d) : start.Before d.valueStart := by
  unfold declaration? at h
  split at h
  · cases h
  next before after cut =>
    simp only at h
    split at h
    · cases h
    · cases h
      exact Position.before_advance_of_ne_nil (by simp) start

structure Stands (e : Entry) (n : Node) : Prop where
  start : n.start = e.start
  opener : ∀ b, n.block? = some b → b.1.line = e.start.line ∧ e.start.column ≤ b.1.column
  value : ∀ d, n = .declaration d → d.start.Before d.valueStart

theorem stands_of_nodeOf {depth : Nat} {e : Entry} {inner : List Entry} {n : Node} {line : Line}
    (origin : e.From line) (made : nodeOf depth e inner = .ok n) : Stands e n := by
  have block {prelude : Prelude} {opener : Position}
      (made : (nodesOf.blockOf depth e.start inner).map (.block prelude e.start opener) = .ok n)
      (same : opener.line = e.start.line) (right : e.start.column ≤ opener.column) :
      Stands e n := by
    obtain ⟨ns, -, rfl⟩ := map_eq_ok_iff.1 made
    refine ⟨rfl, ?_, ?_⟩
    · rintro b ⟨⟩
      exact ⟨same, right⟩
    · rintro d ⟨⟩
  have leaf (start : n.start = e.start) (bare : n.block? = none)
      (other : ∀ d, n ≠ .declaration d) : Stands e n := by
    refine ⟨start, ?_, fun d same => absurd same (other d)⟩
    intro b found
    rw [bare] at found
    cases found
  unfold nodeOf at made
  split at made
  · split at made
    · cases made
      exact leaf rfl rfl (by rintro d ⟨⟩)
    · cases made
  next d kind =>
    cases made
    obtain ⟨lines, rest, read⟩ := origin.kind
    rw [kind] at read
    have declares := declaration_of_kindOf read
    have start := start_of_declaration? declares
    have before := before_valueStart_of_declaration? declares
    rw [← start] at before
    refine ⟨start, ?_, ?_⟩
    · rintro b ⟨⟩
    · rintro d' ⟨⟩
      exact before
  · exact block made rfl (Nat.le_add_right _ _)
  · split at made
    · cases made
      exact leaf rfl rfl (by rintro d ⟨⟩)
    · exact block made rfl (Nat.le_refl _)

theorem forall₂_of_nodesOf {depth indent : Nat} {es : List Entry} {ns : List Node}
    {R : Entry → Node → Prop}
    (one : ∀ e ∈ es, ∀ depth inner n, nodeOf depth e inner = .ok n → R e n)
    (made : nodesOf depth indent es = .ok ns) :
    ∃ es', List.Sublist es' es ∧ List.Forall₂ R es' (Node.walkAll ns) := by
  revert one
  refine nodesOf_induction ?_ ?_ made
  · intro depth indent _
    exact ⟨[], .slnil, .nil⟩
  · intro depth e inner outer n ns deep last node within later one
    simp only [List.forall_mem_cons, List.forall_mem_append] at one
    obtain ⟨own, deeper, others⟩ := one
    have here := own depth inner n node
    obtain ⟨rest, kept, nodes⟩ := later others
    -- The node itself, then what its block holds, made of deeper entries.
    obtain ⟨first, kept', nodes'⟩ : ∃ first, List.Sublist first inner ∧
        List.Forall₂ R (e :: first) n.walk := by
      cases makes_of_nodeOf node with
      | block prelude opener room inside =>
        obtain ⟨first, kept', nodes'⟩ := within _ _ _ inside deeper
        exact ⟨first, kept', .cons here nodes'⟩
      | comment | declaration | statement | empty =>
        exact ⟨[], List.nil_sublist _, .cons here .nil⟩
    refine ⟨e :: first ++ rest, (kept'.append kept).cons_cons e, ?_⟩
    rw [Node.walkAll]
    exact List.rel_append nodes' nodes

theorem stands_of_nodesOf {depth indent : Nat} {es : List Entry} {ns : List Node}
    (origin : ∀ e ∈ es, ∃ line, e.From line) (made : nodesOf depth indent es = .ok ns) :
    ∃ es', List.Sublist es' es ∧ List.Forall₂ Stands es' (Node.walkAll ns) := by
  apply forall₂_of_nodesOf ?_ made
  intro e mem depth inner n node
  obtain ⟨line, own⟩ := origin e mem
  exact stands_of_nodeOf own node

theorem ordered_of_parse {text : String} {sheet : Sheet}
    (parsed : Dialect.sugarss.parse text = .ok sheet) : sheet.Ordered := by
  obtain ⟨es, scanned, made⟩ := entries_of_parse parsed
  have origin : ∀ e ∈ es, ∃ line, e.From line := by
    intro e mem
    obtain ⟨line, -, origin⟩ := from_of_mem_entriesOf none _ es scanned e mem
    exact ⟨line, origin⟩
  obtain ⟨es', kept, stand⟩ := stands_of_nodesOf origin made
  have below := (entriesOf_pairwise (linesOf_pairwise _) es scanned).sublist kept
  refine Sheet.ordered_of_leads ?_ ?_ ?_
  · apply pairwise_of_forall₂ stand below
    intro a b m n lt standsM standsN
    constructor
    · rw [standsM.start, standsN.start]
      exact .inl lt
    · intro block found
      rw [standsN.start]
      exact .inl ((standsM.opener block found).1.trans_lt lt)
  · intro prelude start opener nodes mem
    obtain ⟨e, -, stands⟩ := exists_of_forall₂ stand mem
    obtain ⟨line, column⟩ := stands.opener _ rfl
    have here : start = e.start := stands.start
    subst here
    rcases column.eq_or_lt with same | right
    · exact .inl (by rw [Position.mk.injEq]; exact ⟨line.symm, same⟩)
    · exact .inr (.inr ⟨line.symm, right⟩)
  · intro d mem
    obtain ⟨e, -, stands⟩ := exists_of_forall₂ stand mem
    exact stands.value d rfl

end Indented

end SheetLint
