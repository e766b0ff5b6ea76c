import Mathlib.Algebra.Ring.Nat
import Mathlib.Data.List.Perm.Basic
import Mathlib.Data.List.Nodup
import SheetLint.Check
import SheetLint.Proofs.Brace.Pieces

/-!
Traversals of a tree. A node is told apart from others like it by its address, the indices on the way
down to it. Walking over a sheet visits every address that leads to a node once, in reading order
(`Address.Before`), and the lists of nodes that are visited, one for the sheet and one for every block,
hold each of these nodes once (`Sheet.walk_partitions`).
-/

namespace SheetLint

abbrev Address := List Nat

/-- Whether an address comes before another: the other leads to a node inside of the node, or inside of
a later sibling of the node or of one around it, or to such a sibling. -/
inductive Address.Before : Address → Address → Prop
  | inside (a : Address) (i : Nat) (below : Address) : Before a (a ++ i :: below)
  | beside (around : Address) {i j : Nat} (later : i < j) (a b : Address) :
    Before (around ++ i :: a) (around ++ j :: b)

namespace Address

theorem Before.cons {a b : Address} (h : a.Before b) (i : Nat) : Before (i :: a) (i :: b) := by
  cases h with
  | inside a j below => exact .inside (i :: a) j below
  | beside around later a b => exact .beside (i :: around) later a b

theorem Before.ne {a b : Address} (h : a.Before b) : a ≠ b := by
  cases h with
  | inside a i below => simp
  | beside around later a b =>
    intro same
    have := List.append_cancel_left same
    cases this
    exact Nat.lt_irrefl _ later

end Address

namespace Node

def inner? (n : Node) : Option (List Node) :=
  n.block?.map (·.2)

def at? : Node → Address → Option Node
  | n, [] => some n
  | n, i :: a => n.inner?.bind fun inner => inner[i]?.bind (at? · a)

theorem at?_append (n : Node) (a b : Address) : n.at? (a ++ b) = (n.at? a).bind (·.at? b) := by
  induction a generalizing n with
  | nil => rfl
  | cons i a ih =>
    rw [List.cons_append, at?, at?, Option.bind_assoc]
    congr 1
    funext inner
    rw [Option.bind_assoc]
    congr 1
    funext m
    exact ih m

mutual

def addresses : Node → List Address
  | .block _ _ _ nodes => [] :: addressesFrom 0 nodes
  | .comment _ | .declaration _ | .statement _ _ => [[]]

def addressesFrom (k : Nat) : List Node → List Address
  | [] => []
  | n :: ns => n.addresses.map (k :: ·) ++ addressesFrom (k + 1) ns

end

theorem mem_addressesFrom {k : Nat} {ns : List Node} {a : Address} :
    a ∈ addressesFrom k ns ↔ ∃ i n b, a = (k + i) :: b ∧ ns[i]? = some n ∧ b ∈ n.addresses := by
  induction ns generalizing k with
  | nil => simp [addressesFrom]
  | cons n ns ih =>
    rw [addressesFrom, List.mem_append, List.mem_map, ih]
    constructor
    · rintro (⟨b, mem, rfl⟩ | ⟨i, m, b, rfl, there, mem⟩)
      · exact ⟨0, n, b, rfl, rfl, mem⟩
      · exact ⟨i + 1, m, b, by rw [Nat.add_right_comm, Nat.add_assoc], there, mem⟩
    · rintro ⟨_ | i, m, b, rfl, there, mem⟩
      · cases there
        exact .inl ⟨b, mem, rfl⟩
      · exact .inr ⟨i, m, b, by rw [Nat.add_right_comm, Nat.add_assoc], there, mem⟩

theorem addresses_eq (n : Node) : n.addresses = [] :: (n.inner?.elim [] (addressesFrom 0)) := by
  cases n <;> rfl

theorem mem_addresses_iff {a : Address} : ∀ n : Node, a ∈ n.addresses ↔ (n.at? a).isSome := by
  induction a with
  | nil => intro n; rw [addresses_eq]; simp [at?]
  | cons i a ih =>
    intro n
    rw [addresses_eq, at?]
    cases n.inner? with
    | none => simp
    | some inner =>
      simp only [List.mem_cons, reduceCtorEq, false_or, Option.elim_some, Option.bind_some,
        mem_addressesFrom, Nat.zero_add]
      constructor
      · rintro ⟨_, m, _, ⟨rfl, rfl⟩, there, mem⟩
        rw [there]
        exact (ih m).1 mem
      · intro leads
        cases there : inner[i]? with
        | none => rw [there] at leads; cases leads
        | some m =>
          rw [there] at leads
          exact ⟨i, m, a, rfl, there, (ih m).2 leads⟩

mutual

theorem addresses_pairwise : ∀ n : Node, n.addresses.Pairwise Address.Before
  | .block _ _ _ nodes => by
    rw [addresses, List.pairwise_cons]
    refine ⟨fun a mem => ?_, addressesFrom_pairwise 0 nodes⟩
    obtain ⟨i, n, b, rfl, -, -⟩ := mem_addressesFrom.1 mem
    exact .inside [] _ b
  | .comment _ | .declaration _ | .statement _ _ => List.pairwise_singleton _ _

theorem addressesFrom_pairwise (k : Nat) :
    ∀ ns : List Node, (addressesFrom k ns).Pairwise Address.Before
  | [] => .nil
  | n :: ns => by
    rw [addressesFrom, List.pairwise_append]
    refine ⟨(addresses_pairwise n).map _ fun a b h => h.cons k, addressesFrom_pairwise (k + 1) ns, ?_⟩
    intro a here b there
    obtain ⟨a, -, rfl⟩ := List.mem_map.1 here
    obtain ⟨i, m, b, rfl, -, -⟩ := mem_addressesFrom.1 there
    exact .beside [] (by omega) a b

end

mutual

theorem walk_addresses : ∀ n : Node, n.addresses.map n.at? = n.walk.map some
  | .block prelude start opener nodes => by
    have below : (addressesFrom 0 nodes).map (Node.block prelude start opener nodes).at? =
        (walkAll nodes).map some := walkAll_addresses _ [] nodes fun i a => rfl
    rw [addresses, walk, List.map_cons, List.map_cons, below]
    rfl
  | .comment _ | .declaration _ | .statement _ _ => rfl

theorem walkAll_addresses (look : Address → Option Node) (before : List Node) :
    ∀ ns : List Node, (∀ i a, look (i :: a) = (before ++ ns)[i]?.bind (at? · a)) →
      (addressesFrom before.length ns).map look = (walkAll ns).map some
  | [], _ => rfl
  | n :: ns, looked => by
    have here : (n.addresses.map (before.length :: ·)).map look = n.walk.map some := by
      rw [List.map_map, ← walk_addresses n]
      refine List.map_congr_left fun a _ => ?_
      rw [Function.comp_apply, looked]
      simp
    have rest : (addressesFrom (before.length + 1) ns).map look = (walkAll ns).map some := by
      have := walkAll_addresses look (before ++ [n]) ns (by simpa using looked)
      simpa using this
    rw [addressesFrom, walkAll, List.map_append, List.map_append, here, rest]

end

end Node

namespace Sheet

def node? (s : Sheet) : Address → Option Node
  | [] => none
  | i :: a => s.nodes[i]?.bind (·.at? a)

/-- The list of nodes at an address: that of the sheet at the empty one, else that of the block of the
node. -/
def list? (s : Sheet) : Address → Option (List Node)
  | [] => some s.nodes
  | i :: a => (s.node? (i :: a)).bind Node.inner?

theorem node?_concat (s : Sheet) (a : Address) (i : Nat) :
    s.node? (a ++ [i]) = (s.list? a).bind (·[i]?) := by
  cases a with
  | nil => exact (Option.bind_fun_some _).trans rfl
  | cons j a =>
    rw [List.cons_append, node?, list?, node?, Option.bind_assoc, Option.bind_assoc]
    congr 1
    funext m
    rw [Node.at?_append]
    congr 1
    funext n
    rw [Node.at?]
    congr 1
    funext inner
    exact Option.bind_fun_some _

structure Visits (s : Sheet) (as : List Address) : Prop where
  once : as.Nodup
  mem_iff : ∀ a, a ∈ as ↔ ∃ n, s.node? a = some n
  ordered : as.Pairwise Address.Before

theorem exists_visits (s : Sheet) :
    ∃ as, s.Visits as ∧ as.map s.node? = s.walk.map some := by
  have ordered := Node.addressesFrom_pairwise 0 s.nodes
  refine ⟨Node.addressesFrom 0 s.nodes, ⟨ordered.imp Address.Before.ne, ?_, ordered⟩, ?_⟩
  · intro a
    rw [Node.mem_addressesFrom]
    constructor
    · rintro ⟨i, n, b, rfl, there, mem⟩
      rw [Nat.zero_add, node?, there]
      exact Option.isSome_iff_exists.1 ((Node.mem_addresses_iff n).1 mem)
    · rintro ⟨n, found⟩
      cases a with
      | nil => cases found
      | cons i a =>
        obtain ⟨m, there, found⟩ := Option.bind_eq_some_iff.1 found
        refine ⟨i, m, a, by rw [Nat.zero_add], there, ?_⟩
        exact (Node.mem_addresses_iff m).2 (Option.isSome_iff_exists.2 ⟨n, found⟩)
  · exact Node.walkAll_addresses _ [] s.nodes fun i a => rfl

def listed (s : Sheet) (as : List Address) : List Address :=
  [] :: as.filter fun a => (s.list? a).isSome

theorem map_filter_isSome {α β : Type} (f : α → Option β) (as : List α) :
    (as.filter fun a => (f a).isSome).map f = (as.filterMap f).map some := by
  induction as with
  | nil => rfl
  | cons a as ih => cases found : f a <;> simp [found, ih]

section Lists

variable {s : Sheet} {as : List Address}

theorem Visits.nil_not_mem (visits : s.Visits as) : [] ∉ as := by
  intro mem
  obtain ⟨n, found⟩ := (visits.mem_iff []).1 mem
  cases found

theorem Visits.list?_eq (visits : s.Visits as) {a : Address} (mem : a ∈ as) :
    s.list? a = (s.node? a).bind Node.inner? := by
  cases a with
  | nil => exact absurd mem visits.nil_not_mem
  | cons i a => rfl

theorem map_listed (visits : s.Visits as) (nodes : as.map s.node? = s.walk.map some) :
    (s.listed as).map s.list? = s.containers.map some := by
  have blocks : as.filterMap s.list? = s.walk.filterMap Node.inner? := by
    calc as.filterMap s.list?
      _ = as.filterMap fun a => (s.node? a).bind Node.inner? :=
        List.filterMap_congr fun a mem => visits.list?_eq mem
      _ = (as.map s.node?).filterMap (·.bind Node.inner?) := by rw [List.filterMap_map]; rfl
      _ = s.walk.filterMap Node.inner? := by rw [nodes, List.filterMap_map]; rfl
  rw [listed, List.map_cons, map_filter_isSome, blocks]
  rfl

theorem listed_nodup (visits : s.Visits as) : (s.listed as).Nodup :=
  List.nodup_cons.2 ⟨fun mem => visits.nil_not_mem (List.mem_of_mem_filter mem), visits.once.filter _⟩

theorem mem_listed_iff (visits : s.Visits as) {c : Address} :
    c ∈ s.listed as ↔ ∃ nodes, s.list? c = some nodes := by
  rw [listed, List.mem_cons, List.mem_filter, Option.isSome_iff_exists]
  constructor
  · rintro (rfl | ⟨-, found⟩)
    · exact ⟨s.nodes, rfl⟩
    · exact found
  · rintro ⟨nodes, found⟩
    cases c with
    | nil => exact .inl rfl
    | cons i c =>
      obtain ⟨n, there, -⟩ := Option.bind_eq_some_iff.1 found
      exact .inr ⟨(visits.mem_iff _).2 ⟨n, there⟩, nodes, found⟩

theorem existsUnique_listed (visits : s.Visits as) {a : Address} (mem : a ∈ as) :
    ∃! c, c ∈ s.listed as ∧ ∃ nodes i, s.list? c = some nodes ∧ i < nodes.length ∧ a = c ++ [i] := by
  obtain ⟨c, i, rfl⟩ : ∃ c i, a = c ++ [i] := by
    cases List.eq_nil_or_concat a with
    | inl empty => exact absurd (empty ▸ mem) visits.nil_not_mem
    | inr split => simpa using split
  obtain ⟨n, found⟩ := (visits.mem_iff _).1 mem
  rw [node?_concat] at found
  obtain ⟨nodes, list, there⟩ := Option.bind_eq_some_iff.1 found
  obtain ⟨within, -⟩ := List.getElem?_eq_some_iff.1 there
  refine ⟨c, ⟨(mem_listed_iff visits).2 ⟨nodes, list⟩, nodes, i, list, within, rfl⟩, ?_⟩
  rintro c' ⟨-, nodes', i', -, -, same⟩
  exact (List.append_inj_left' same rfl).symm

end Lists

end Sheet

/-! ## Counts -/

namespace Node

mutual

theorem flatten_walk_perm : ∀ n : Node, (n :: (n.walk.filterMap inner?).flatten).Perm n.walk
  | .block prelude start opener nodes => by
    have block : inner? (.block prelude start opener nodes) = some nodes := rfl
    rw [walk, List.filterMap_cons_some block, List.flatten_cons]
    exact (flatten_walkAll_perm nodes).cons _
  | .comment _ | .declaration _ | .statement _ _ => List.Perm.refl _

theorem flatten_walkAll_perm :
    ∀ ns : List Node, (ns ++ ((walkAll ns).filterMap inner?).flatten).Perm (walkAll ns)
  | [] => .nil
  | n :: ns => by
    rw [walkAll, List.filterMap_append, List.flatten_append]
    refine .trans ?_ ((flatten_walk_perm n).append (flatten_walkAll_perm ns))
    rw [List.cons_append, List.cons_append]
    refine .cons n ?_
    rw [← List.append_assoc, ← List.append_assoc]
    exact List.perm_append_comm.append_right _

end

end Node

namespace Sheet

theorem flatten_containers_perm (s : Sheet) : s.containers.flatten.Perm s.walk :=
  Node.flatten_walkAll_perm s.nodes

theorem sum_lengths (s : Sheet) : (s.containers.map List.length).sum = s.nodeCount := by
  rw [← List.length_flatten, (flatten_containers_perm s).length_eq, nodeCount]

theorem length_containers (s : Sheet) :
    s.containers.length = 1 + s.walk.countP fun n => n.block?.isSome := by
  rw [containers, List.length_cons, List.length_filterMap_eq_countP, Nat.add_comm]
  simp

theorem artifact_checkInput (plan : List PlannedRule) {input : Input} {text : String} {s : Sheet}
    (read : input.text = .ok text) (parsed : input.dialect.parse text = .ok s) :
    (Check.checkInput plan input).artifact = some ⟨input.dialect, s.nodeCount⟩ := by
  simp only [Check.checkInput, read, Check.checkText, parsed, InputResult.checked]

/-- Every node is visited once, before the nodes in its block and those before its later siblings; the
list of the sheet and then those of the blocks are visited once, in the order of their owners, and hold
every node once. -/
theorem walk_partitions (s : Sheet) : ∃ as : List Address,
    (s.Visits as ∧ as.map s.node? = s.walk.map some) ∧
    ((s.listed as).Nodup ∧ (s.listed as).map s.list? = s.containers.map some) ∧
    (∀ a ∈ as, ∃! c, c ∈ s.listed as ∧
      ∃ nodes i, s.list? c = some nodes ∧ i < nodes.length ∧ a = c ++ [i]) ∧
    s.containers.flatten.Perm s.walk ∧
    s.containers.length = 1 + (s.walk.countP fun n => n.block?.isSome) ∧
    (s.containers.map List.length).sum = s.nodeCount ∧
    ∀ plan input text, input.text = .ok text → input.dialect.parse text = .ok s →
      (Check.checkInput plan input).artifact = some ⟨input.dialect, s.nodeCount⟩ := by
  obtain ⟨as, visits, nodes⟩ := exists_visits s
  refine ⟨as, ⟨visits, nodes⟩, ⟨listed_nodup visits, map_listed visits nodes⟩, ?_,
    flatten_containers_perm s, length_containers s, sum_lengths s, ?_⟩
  · intro a mem
    exact existsUnique_listed visits mem
  · intro plan input text read parsed
    exact artifact_checkInput plan read parsed

theorem walk_partitions_nested :
    Dialect.css.parse "\x7b/**/\x7b\x7d\x7d" = .ok ⟨[.block (.selector "") ⟨1, 1⟩ ⟨1, 1⟩
      [.comment ⟨"", ⟨1, 2⟩, false⟩, .block (.selector "") ⟨1, 6⟩ ⟨1, 6⟩ []]]⟩ ∧
    (Check.checkInput [] ⟨"a.css", none, .css, .ok "\x7b/**/\x7b\x7d\x7d"⟩).artifact =
      some ⟨.css, 3⟩ := by
  have first : Brace.Piece.next .css (Cell.ofChars .start "\x7b/**/\x7b\x7d\x7d".toList) =
      .ok (some (.opening [] ⟨1, 1⟩, Cell.ofChars ⟨1, 2⟩ "/**/\x7b\x7d\x7d".toList)) := rfl
  have second : Brace.Piece.next .css (Cell.ofChars ⟨1, 2⟩ "/**/\x7b\x7d\x7d".toList) =
      .ok (some (.comment ⟨"", ⟨1, 2⟩, false⟩, Cell.ofChars ⟨1, 6⟩ "\x7b\x7d\x7d".toList)) := rfl
  have third : Brace.Piece.next .css (Cell.ofChars ⟨1, 6⟩ "\x7b\x7d\x7d".toList) =
      .ok (some (.opening [] ⟨1, 6⟩, Cell.ofChars ⟨1, 7⟩ "\x7d\x7d".toList)) := rfl
  have fourth : Brace.Piece.next .css (Cell.ofChars ⟨1, 7⟩ "\x7d\x7d".toList) =
      .ok (some (.closing ⟨1, 7⟩, Cell.ofChars ⟨1, 8⟩ "\x7d".toList)) := rfl
  have last : Brace.Piece.next .css (Cell.ofChars ⟨1, 8⟩ "\x7d".toList) =
      .ok (some (.closing ⟨1, 8⟩, [])) := rfl
  have whole : Brace.pieces .css (Cell.ofChars .start "\x7b/**/\x7b\x7d\x7d".toList) =
      .ok [.opening [] ⟨1, 1⟩, .comment ⟨"", ⟨1, 2⟩, false⟩, .opening [] ⟨1, 6⟩, .closing ⟨1, 7⟩,
        .closing ⟨1, 8⟩] := by
    rw [Brace.pieces_of_some first, Brace.pieces_of_some second, Brace.pieces_of_some third,
      Brace.pieces_of_some fourth, Brace.pieces_of_some last, Brace.pieces_of_none rfl]
    rfl
  have parsed : Dialect.css.parse "\x7b/**/\x7b\x7d\x7d" = .ok ⟨[.block (.selector "") ⟨1, 1⟩ ⟨1, 1⟩
      [.comment ⟨"", ⟨1, 2⟩, false⟩, .block (.selector "") ⟨1, 6⟩ ⟨1, 6⟩ []]]⟩ :=
    map_eq_ok_iff.2 ⟨_, (Brace.Outline.readAll_eq_ok_iff _ _ _).2 ⟨_, _, whole, rfl, rfl⟩, rfl⟩
  obtain ⟨as, -, -, -, -, -, -, artifact⟩ := walk_partitions ⟨[.block (.selector "") ⟨1, 1⟩ ⟨1, 1⟩
    [.comment ⟨"", ⟨1, 2⟩, false⟩, .block (.selector "") ⟨1, 6⟩ ⟨1, 6⟩ []]]⟩
  exact ⟨parsed, artifact [] ⟨"a.css", none, .css, .ok _⟩ _ rfl parsed⟩

end Sheet

end SheetLint
