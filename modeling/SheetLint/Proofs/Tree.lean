import Mathlib.Data.List.Forall2
import SheetLint.Tree

namespace SheetLint

namespace Node

def bare : Node → Node
  | .block prelude start opener _ => .block prelude start opener []
  | n => n

def declaration? : Node → Option Declaration
  | .declaration d => some d
  | _ => none

end Node

/-! ## Nodes in containers -/

namespace Node

theorem mem_walkAll {n : Node} {ns : List Node} (mem : n ∈ ns) : n ∈ walkAll ns := by
  induction ns with
  | nil => cases mem
  | cons m ns ih =>
    rw [walkAll, List.mem_append]
    rcases List.mem_cons.1 mem with rfl | mem
    · cases n <;> exact .inl List.mem_cons_self
    · exact .inr (ih mem)

mutual

theorem walk_of_block {m k : Node} {b : Position × List Node} (block : m.block? = some b)
    (inside : k ∈ b.2) : ∀ n : Node, m ∈ n.walk → k ∈ n.walk
  | .block prelude start opener nodes, mem => by
    rw [walk, List.mem_cons] at mem ⊢
    rcases mem with rfl | mem
    · cases block
      exact .inr (mem_walkAll inside)
    · exact .inr (walkAll_of_block block inside nodes mem)
  | .comment c, mem => by cases List.mem_singleton.1 mem; cases block
  | .declaration d, mem => by cases List.mem_singleton.1 mem; cases block
  | .statement prelude start, mem => by cases List.mem_singleton.1 mem; cases block

theorem walkAll_of_block {m k : Node} {b : Position × List Node} (block : m.block? = some b)
    (inside : k ∈ b.2) : ∀ ns : List Node, m ∈ walkAll ns → k ∈ walkAll ns
  | [], mem => by cases mem
  | n :: ns, mem => by
    rw [walkAll, List.mem_append] at mem ⊢
    exact mem.imp (walk_of_block block inside n) (walkAll_of_block block inside ns)

end

end Node

theorem Sheet.mem_walk_of_container {sheet : Sheet} {nodes : List Node} {n : Node}
    (container : nodes ∈ sheet.containers) (mem : n ∈ nodes) : n ∈ sheet.walk := by
  rcases List.mem_cons.1 container with rfl | container
  · exact Node.mem_walkAll mem
  · obtain ⟨owner, within, found⟩ := List.mem_filterMap.1 container
    obtain ⟨b, block, rfl⟩ := Option.map_eq_some_iff.1 found
    exact Node.walkAll_of_block block mem sheet.nodes within

/-! ## Lists that correspond one for one -/

theorem exists_of_forall₂ {α β : Type} {R : α → β → Prop} {as : List α} {bs : List β}
    (h : List.Forall₂ R as bs) {b : β} (mem : b ∈ bs) : ∃ a ∈ as, R a b := by
  induction h with
  | nil => cases mem
  | @cons a b' as bs related _ ih =>
    rcases List.mem_cons.1 mem with rfl | mem
    · exact ⟨a, List.mem_cons_self, related⟩
    · obtain ⟨a', among, related'⟩ := ih mem
      exact ⟨a', .tail _ among, related'⟩

theorem pairwise_of_forall₂ {α β : Type} {R : α → β → Prop} {P : α → α → Prop} {Q : β → β → Prop}
    {as : List α} {bs : List β} (h : List.Forall₂ R as bs) (pairs : as.Pairwise P)
    (step : ∀ a a' b b', P a a' → R a b → R a' b' → Q b b') : bs.Pairwise Q := by
  induction h with
  | nil => exact .nil
  | @cons a b as bs related later ih =>
    rw [List.pairwise_cons] at pairs
    refine .cons ?_ (ih pairs.2)
    intro b' mem
    obtain ⟨a', among, related'⟩ := exists_of_forall₂ later mem
    exact step a a' b b' (pairs.1 a' among) related related'

/-! ## Writers -/

structure Writer (α : Type) where
  leaf : Node → List α
  opening : Prelude → Position → Position → List α
  closing : List α

namespace Writer

variable {α : Type} (w : Writer α)

mutual

def node : Node → List α
  | .block prelude start opener nodes => w.opening prelude start opener ++ (all nodes ++ w.closing)
  | .comment c => w.leaf (.comment c)
  | .declaration d => w.leaf (.declaration d)
  | .statement prelude start => w.leaf (.statement prelude start)

def all : List Node → List α
  | [] => []
  | n :: ns => node n ++ all ns

end

theorem all_append (ms ns : List Node) : w.all (ms ++ ns) = w.all ms ++ w.all ns := by
  induction ms with
  | nil => rfl
  | cons m ms ih => rw [List.cons_append, all, all, ih, List.append_assoc]

theorem all_singleton (n : Node) : w.all [n] = w.node n := by
  rw [all, all, List.append_nil]

def preorder : Writer Node where
  leaf n := [n]
  opening prelude start opener := [.block prelude start opener []]
  closing := []

mutual

theorem node_preorder : ∀ n : Node, preorder.node n = n.walk.map Node.bare
  | .block prelude start opener nodes => by
    rw [node, all_preorder nodes, Node.walk]
    simp [preorder, Node.bare]
  | .comment _ | .declaration _ | .statement _ _ => rfl

theorem all_preorder : ∀ ns : List Node, preorder.all ns = (Node.walkAll ns).map Node.bare
  | [] => rfl
  | n :: ns => by rw [all, node_preorder n, all_preorder ns, Node.walkAll, List.map_append]

end

end Writer

end SheetLint
