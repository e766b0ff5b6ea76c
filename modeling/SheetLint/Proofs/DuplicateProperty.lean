import Mathlib.Data.Finset.Card
import Mathlib.Data.List.Dedup
import Mathlib.Data.List.Forall2
import SheetLint.Proofs.Tree
import SheetLint.Rule.NoDuplicateProperties

namespace SheetLint

namespace Node

def declarations (nodes : List Node) : List Declaration :=
  nodes.filterMap declaration?

mutual

/-- A node without the declarations that lie in it. -/
def frame : Node → Node
  | .block prelude start opener nodes => .block prelude start opener (frameAll nodes)
  | .comment c => .comment c
  | .declaration d => .declaration d
  | .statement prelude start => .statement prelude start

def frameAll : List Node → List Node
  | [] => []
  | .declaration _ :: ns => frameAll ns
  | n :: ns => frame n :: frameAll ns

end

end Node

def Sheet.frame (s : Sheet) : Sheet :=
  ⟨Node.frameAll s.nodes⟩

/-- Whether the property of a declaration is the name of a variable. One that begins with an
interpolation, as in `@{side}`, is not. -/
def Declaration.SetsVariable (d : Declaration) : Prop :=
  ['$'] <+: d.prop.toList ∨ ['@'] <+: d.prop.toList ∧ ¬['@', '{'] <+: d.prop.toList

instance : DecidablePred Declaration.SetsVariable :=
  fun _ => inferInstanceAs (Decidable (_ ∨ _ ∧ ¬_))

theorem Declaration.isVariable_eq_false_iff {d : Declaration} :
    d.isVariable = false ↔ ¬d.SetsVariable := by
  rw [isVariable, SetsVariable]
  split
  next name => simp [name, List.cons_prefix_cons]
  next name => simp [name, List.cons_prefix_cons, eq_comm (a := '{')]
  next name => simp [name, List.cons_prefix_cons]
  next dollar at' lone =>
    have plain : ¬['$'] <+: d.prop.toList ∧ ¬['@'] <+: d.prop.toList := by
      constructor
      · rintro ⟨rest, name⟩
        exact dollar rest name.symm
      · rintro ⟨rest, name⟩
        cases rest with
        | nil => exact lone name.symm
        | cons c rest => exact at' c rest name.symm
    simp [plain]

namespace Rule

def SetsAt (nodes : List Node) (i : Nat) (d : Declaration) : Prop :=
  nodes[i]? = some (.declaration d) ∧ ¬d.SetsVariable

def RepeatsAt (nodes : List Node) (i : Nat) (d : Declaration) : Prop :=
  SetsAt nodes i d ∧ ∃ j < i, ∃ e, SetsAt nodes j e ∧ Text.eqIgnoringCase e.prop d.prop = true

def properties (nodes : List Node) : List (List Char) :=
  ((Node.declarations nodes).filter (¬·.SetsVariable)).map (Text.lowerAscii ·.prop.toList)

/-- Whether the findings about a list of nodes are, from an index on, one for each declaration that
repeats a property, in their order. -/
def ReportsFrom (nodes : List Node) (start : Nat) (findings : List Finding) : Prop :=
  ∃ is : List Nat, is.Pairwise (· < ·) ∧ (∀ i, i ∈ is ↔ start ≤ i ∧ ∃ d, RepeatsAt nodes i d) ∧
    List.Forall₂ (fun i f => ∃ d, RepeatsAt nodes i d ∧
      f = ⟨d.start, "Unexpected duplicate \"" ++ d.prop ++ "\""⟩) is findings

def duplicatesByList (sheet : Sheet) : List (List Finding) :=
  sheet.containers.map (duplicatesAfter [])

/-! ## One list -/

theorem property?_eq_some_iff {n : Node} {p : List Char} :
    property? n = some p ↔
      ∃ d, n = .declaration d ∧ ¬d.SetsVariable ∧ Text.lowerAscii d.prop.toList = p := by
  cases n with
  | declaration d =>
    simp only [← Declaration.isVariable_eq_false_iff]
    cases variable' : d.isVariable <;> simp [property?, variable']
  | comment | statement | block => simp [property?]

theorem duplicatesAfter_of_none {n : Node} (other : property? n = none) (seen : List (List Char))
    (nodes : List Node) : duplicatesAfter seen (n :: nodes) = duplicatesAfter seen nodes := by
  cases n with
  | declaration d => rw [duplicatesAfter, other]
  | comment | statement | block => rfl

theorem duplicatesAfter_of_some {d : Declaration} {p : List Char}
    (sets : property? (.declaration d) = some p) (seen : List (List Char)) (nodes : List Node) :
    duplicatesAfter seen (.declaration d :: nodes) =
      if p ∈ seen then duplicate d :: duplicatesAfter seen nodes
      else duplicatesAfter (p :: seen) nodes := by
  simp only [duplicatesAfter, sets, List.contains_iff_mem]

theorem filterMap_property? (nodes : List Node) : nodes.filterMap property? = properties nodes := by
  induction nodes with
  | nil => rfl
  | cons n nodes ih =>
    cases n with
    | declaration d =>
      have taken : Node.declarations (.declaration d :: nodes) = d :: Node.declarations nodes := rfl
      have same := d.isVariable_eq_false_iff
      cases variable' : d.isVariable <;> simp_all [property?, properties]
    | comment | statement | block => exact ih

section Reports

variable {nodes : List Node} {k : Nat} {findings : List Finding}

theorem ReportsFrom.nil (past : nodes.length ≤ k) : ReportsFrom nodes k [] := by
  refine ⟨[], .nil, fun i => ?_, .nil⟩
  simp only [List.not_mem_nil, false_iff]
  rintro ⟨late, d, ⟨there, -⟩, -⟩
  have short := (List.getElem?_eq_some_iff.1 there).1
  omega

theorem ReportsFrom.skip (first : ∀ d, ¬RepeatsAt nodes k d) (later : ReportsFrom nodes (k + 1) findings) :
    ReportsFrom nodes k findings := by
  obtain ⟨is, increasing, exactly, each⟩ := later
  refine ⟨is, increasing, fun i => (exactly i).trans ⟨?_, ?_⟩, each⟩
  · rintro ⟨late, repeats⟩
    exact ⟨by omega, repeats⟩
  · rintro ⟨late, d, repeats⟩
    have other : i ≠ k := by
      rintro rfl
      exact first d repeats
    exact ⟨by omega, d, repeats⟩

theorem ReportsFrom.cons {d : Declaration} (first : RepeatsAt nodes k d)
    (later : ReportsFrom nodes (k + 1) findings) :
    ReportsFrom nodes k (duplicate d :: findings) := by
  obtain ⟨is, increasing, exactly, each⟩ := later
  refine ⟨k :: is, .cons ?_ increasing, fun i => ?_, .cons ⟨d, first, rfl⟩ each⟩
  · intro i mem
    exact ((exactly i).1 mem).1
  · rw [List.mem_cons, exactly]
    constructor
    · rintro (rfl | ⟨late, repeats⟩)
      · exact ⟨Nat.le_refl _, d, first⟩
      · exact ⟨by omega, repeats⟩
    · rintro ⟨late, repeats⟩
      by_cases same : i = k
      · exact .inl same
      · exact .inr ⟨by omega, repeats⟩

end Reports

theorem setsAt_append_left {before nodes : List Node} {j : Nat} {e : Declaration}
    (early : j < before.length) : SetsAt (before ++ nodes) j e ↔ SetsAt before j e := by
  rw [SetsAt, SetsAt, List.getElem?_append_left early]

theorem mem_filterMap_property?_iff {nodes : List Node} {p : List Char} :
    p ∈ nodes.filterMap property? ↔
      ∃ j e, SetsAt nodes j e ∧ Text.lowerAscii e.prop.toList = p := by
  rw [List.mem_filterMap]
  constructor
  · rintro ⟨n, mem, set⟩
    obtain ⟨e, rfl, plain, same⟩ := property?_eq_some_iff.1 set
    obtain ⟨j, there⟩ := List.mem_iff_getElem?.1 mem
    exact ⟨j, e, ⟨there, plain⟩, same⟩
  · rintro ⟨j, e, ⟨there, plain⟩, same⟩
    exact ⟨_, List.mem_of_getElem? there, property?_eq_some_iff.2 ⟨e, rfl, plain, same⟩⟩

theorem repeatsAt_length_iff {before nodes : List Node} {n : Node} {d : Declaration} :
    RepeatsAt (before ++ n :: nodes) before.length d ↔ n = .declaration d ∧ ¬d.SetsVariable ∧
      Text.lowerAscii d.prop.toList ∈ before.filterMap property? := by
  have here : SetsAt (before ++ n :: nodes) before.length d ↔
      n = .declaration d ∧ ¬d.SetsVariable := by simp [SetsAt]
  rw [RepeatsAt, here, and_assoc, mem_filterMap_property?_iff]
  simp only [Text.eqIgnoringCase, beq_iff_eq]
  refine and_congr_right fun _ => and_congr_right fun _ => ⟨?_, ?_⟩
  · rintro ⟨j, early, e, sets, same⟩
    exact ⟨j, e, (setsAt_append_left early).1 sets, same⟩
  · rintro ⟨j, e, sets, same⟩
    have early := (List.getElem?_eq_some_iff.1 sets.1).1
    exact ⟨j, early, e, (setsAt_append_left early).2 sets, same⟩

theorem reportsFrom_duplicatesAfter (before nodes : List Node) {seen : List (List Char)}
    (known : ∀ p, p ∈ seen ↔ p ∈ before.filterMap property?) :
    ReportsFrom (before ++ nodes) before.length (duplicatesAfter seen nodes) := by
  -- `seen` has the properties that the nodes before set, in whatever order.
  induction nodes generalizing before seen with
  | nil => exact .nil (by simp)
  | cons n nodes ih =>
    have onward {seen : List (List Char)}
        (known : ∀ p, p ∈ seen ↔ p ∈ (before ++ [n]).filterMap property?) :
        ReportsFrom (before ++ n :: nodes) (before.length + 1) (duplicatesAfter seen nodes) := by
      have later := ih (before ++ [n]) known
      rwa [List.length_append, List.append_assoc] at later
    cases set : property? n with
    | none =>
      rw [duplicatesAfter_of_none set]
      refine .skip ?_ (onward fun p => ?_)
      · intro d repeats
        obtain ⟨rfl, plain, -⟩ := repeatsAt_length_iff.1 repeats
        rw [property?_eq_some_iff.2 ⟨d, rfl, plain, rfl⟩] at set
        cases set
      · rw [known, List.filterMap_append, List.filterMap_cons_none set, List.filterMap_nil,
          List.append_nil]
    | some p =>
      obtain ⟨d, rfl, plain, rfl⟩ := property?_eq_some_iff.1 set
      have both (q : List Char) : q ∈ (before ++ [Node.declaration d]).filterMap property? ↔
          q ∈ before.filterMap property? ∨ q = Text.lowerAscii d.prop.toList := by
        rw [List.filterMap_append, List.mem_append, List.filterMap_cons_some set, List.filterMap_nil,
          List.mem_singleton]
      rw [duplicatesAfter_of_some set]
      split
      next again =>
        have earlier := (known _).1 again
        refine .cons (repeatsAt_length_iff.2 ⟨rfl, plain, earlier⟩) (onward fun q => ?_)
        rw [known, both, or_iff_left_of_imp]
        rintro rfl
        exact earlier
      next fresh =>
        refine .skip ?_ (onward fun q => ?_)
        · intro e repeats
          obtain ⟨same, -, earlier⟩ := repeatsAt_length_iff.1 repeats
          cases same
          exact fresh ((known _).2 earlier)
        · rw [List.mem_cons, known, both, or_comm]

theorem length_duplicatesAfter (seen : List (List Char)) (nodes : List Node) :
    (duplicatesAfter seen nodes).length +
        ((nodes.filterMap property?).toFinset \ seen.toFinset).card =
      (nodes.filterMap property?).length := by
  induction nodes generalizing seen with
  | nil => simp [duplicatesAfter]
  | cons n nodes ih =>
    cases set : property? n with
    | none => rw [duplicatesAfter_of_none set, List.filterMap_cons_none set, ih]
    | some p =>
      obtain ⟨d, rfl, -, -⟩ := property?_eq_some_iff.1 set
      rw [duplicatesAfter_of_some set, List.filterMap_cons_some set, List.toFinset_cons,
        List.length_cons]
      split
      next again =>
        rw [Finset.insert_sdiff_of_mem _ (List.mem_toFinset.2 again), ← ih seen, List.length_cons]
        omega
      next fresh =>
        have apart : p ∉ seen.toFinset := fresh ∘ List.mem_toFinset.1
        rw [Finset.insert_sdiff_of_notMem _ apart, ← ih (p :: seen), List.toFinset_cons,
          Finset.sdiff_insert, ← Finset.card_erase_add_one (Finset.mem_insert_self p _),
          Finset.erase_insert_eq_erase, Nat.add_assoc]

theorem duplicatesAfter_of_declarations (seen : List (List Char)) (nodes : List Node) :
    duplicatesAfter seen nodes =
      duplicatesAfter seen ((Node.declarations nodes).map .declaration) := by
  induction nodes generalizing seen with
  | nil => rfl
  | cons n nodes ih =>
    cases n with
    | declaration d =>
      have taken : Node.declarations (.declaration d :: nodes) = d :: Node.declarations nodes := rfl
      rw [taken, List.map_cons]
      cases set : property? (.declaration d) with
      | none => rw [duplicatesAfter_of_none set, duplicatesAfter_of_none set, ih]
      | some p => rw [duplicatesAfter_of_some set, duplicatesAfter_of_some set, ih, ih (p :: seen)]
    | comment | statement | block =>
      rw [duplicatesAfter_of_none rfl, ih]
      rfl

end Rule

/-! ## The lists of a sheet -/

namespace Node

def lists (ns : List Node) : List (List Node) :=
  ns.filterMap fun n => n.block?.map (·.2)

theorem lists_append (ms ns : List Node) : lists (ms ++ ns) = lists ms ++ lists ns :=
  List.filterMap_append

theorem lists_block (prelude : Prelude) (start opener : Position) (nodes ns : List Node) :
    lists (.block prelude start opener nodes :: ns) = nodes :: lists ns := rfl

mutual

theorem lists_frame : ∀ n : Node, lists n.frame.walk = (lists n.walk).map frameAll
  | .block prelude start opener nodes => by
    rw [frame, walk, walk, lists_block, lists_block, List.map_cons, lists_frameAll nodes]
  | .comment _ | .declaration _ | .statement _ _ => rfl

theorem lists_frameAll : ∀ ns : List Node,
    lists (walkAll (frameAll ns)) = (lists (walkAll ns)).map frameAll
  | [] => rfl
  | .declaration _ :: ns => lists_frameAll ns
  | .comment c :: ns | .statement prelude start :: ns | .block prelude start opener nodes :: ns => by
    rw [frameAll, walkAll, walkAll, lists_append, lists_append, List.map_append, lists_frame,
      lists_frameAll ns]
    nofun

end

end Node

theorem Sheet.containers_frame (s : Sheet) : s.frame.containers = s.containers.map Node.frameAll :=
  congrArg (Node.frameAll s.nodes :: ·) (Node.lists_frameAll s.nodes)

namespace Rule

/-- In each list the rule reports the declarations that repeat a property, each once and at its start,
and of each property all but the first. What it reports in a list depends on the declarations of that
list alone: in a sheet with the same frame the lists correspond one for one, and a list with the same
declarations has the same reports, whatever the others have. -/
theorem noDuplicateProperties_check (context : Context) (sheet : Sheet) :
    noDuplicateProperties.check context sheet = ⟨(duplicatesByList sheet).flatten, .finished⟩ ∧
    List.Forall₂ (fun nodes findings => ReportsFrom nodes 0 findings ∧
        findings.length + (properties nodes).toFinset.card = (properties nodes).length)
      sheet.containers (duplicatesByList sheet) ∧
    ∀ other : Sheet, other.frame = sheet.frame →
      other.containers.map Node.frameAll = sheet.containers.map Node.frameAll ∧
      ∀ k : Nat, other.containers[k]?.map Node.declarations = sheet.containers[k]?.map Node.declarations →
        (duplicatesByList other)[k]? = (duplicatesByList sheet)[k]? := by
  refine ⟨rfl, ?_, ?_⟩
  · refine List.forall₂_map_right_iff.2 (List.forall₂_same.2 fun nodes _ => ⟨?_, ?_⟩)
    · exact reportsFrom_duplicatesAfter [] nodes fun _ => Iff.rfl
    · simpa [filterMap_property?] using length_duplicatesAfter [] nodes
  · intro other same
    refine ⟨?_, fun k declarations => ?_⟩
    · rw [← Sheet.containers_frame, ← Sheet.containers_frame, same]
    · have found (s : Sheet) : (duplicatesByList s)[k]? =
          (s.containers[k]?.map Node.declarations).map fun ds =>
            duplicatesAfter [] (ds.map .declaration) := by
        rw [duplicatesByList, List.getElem?_map, Option.map_map]
        congr 1
        funext nodes
        exact duplicatesAfter_of_declarations [] nodes
      rw [found, found, declarations]

theorem noDuplicateProperties_check_nested :
    let block (inner : List Node) : Sheet := ⟨[.block (.selector "a") ⟨1, 1⟩ ⟨1, 2⟩
      [.declaration ⟨"color", "b", false, ⟨1, 3⟩, ⟨1, 9⟩⟩,
        .block (.selector "c") ⟨2, 1⟩ ⟨2, 2⟩ inner,
        .declaration ⟨"COLOR", "d", false, ⟨3, 1⟩, ⟨3, 7⟩⟩]]⟩
    let color := .declaration ⟨"color", "e", false, ⟨2, 3⟩, ⟨2, 9⟩⟩
    duplicatesByList (block [color]) =
      [[], [⟨⟨3, 1⟩, "Unexpected duplicate \"COLOR\""⟩], []] ∧
    (block []).frame = (block [color]).frame ∧
    (duplicatesByList (block []))[1]? = (duplicatesByList (block [color]))[1]? := by
  refine ⟨by decide, rfl, ?_⟩
  exact ((noDuplicateProperties_check ⟨.null, .css⟩ _).2.2 _ rfl).2 1 (by decide)

end Rule

end SheetLint
