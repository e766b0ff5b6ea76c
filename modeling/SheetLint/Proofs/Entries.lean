import Mathlib.Data.Finset.Card
import Mathlib.Data.List.Induction
import Mathlib.Data.List.Sort
import SheetLint.Json

namespace SheetLint.Entries

variable {α : Type} {entries entries' steps steps' : List (String × α)} {name : String}

/-! ## One step -/

theorem get?_append (entries more : Entries α) (name : String) :
    get? (entries ++ more) name = (get? entries name).or (get? more name) := by
  rw [get?, get?, get?, List.find?_append, Option.map_or]

theorem get?_cons (e : String × α) (entries : Entries α) (name : String) :
    get? (e :: entries) name = if e.1 = name then some e.2 else get? entries name := by
  rw [get?, get?, List.find?_cons]
  by_cases same : e.1 = name <;> simp [same]

theorem get?_eq_none_iff : get? entries name = none ↔ name ∉ entries.map Prod.fst := by
  rw [get?, Option.map_eq_none_iff, List.find?_eq_none, List.mem_map]
  simp only [decide_eq_true_eq, not_exists, not_and]

theorem insert_of_not_mem (value : α) (new : name ∉ entries.map Prod.fst) :
    insert entries name value = entries ++ [(name, value)] := by
  induction entries with
  | nil => rfl
  | cons e entries ih =>
    rw [List.map_cons, List.mem_cons, not_or] at new
    rw [insert, if_neg (Ne.symm new.1), ih new.2]
    rfl

theorem names_insert_of_mem (value : α) (old : name ∈ entries.map Prod.fst) :
    (insert entries name value).map Prod.fst = entries.map Prod.fst := by
  induction entries with
  | nil => cases old
  | cons e entries ih =>
    rw [insert]
    split
    next same => rw [List.map_cons, List.map_cons, same]
    next other =>
      have later : name ∈ entries.map Prod.fst := by
        simpa [Ne.symm other] using old
      rw [List.map_cons, List.map_cons, ih later]

theorem get?_insert (entries : Entries α) (name : String) (value : α) (other : String) :
    get? (insert entries name value) other =
      if name = other then some value else get? entries other := by
  induction entries with
  | nil => rw [insert, get?_cons]
  | cons e entries ih =>
    rw [insert]
    split
    next same =>
      rw [get?_cons, get?_cons, same]
      by_cases asked : name = other <;> simp [asked]
    next apart =>
      rw [get?_cons, get?_cons, ih]
      by_cases asked : e.1 = other
      · rw [if_pos asked, if_pos asked, if_neg fun same => apart (asked.trans same.symm)]
      · rw [if_neg asked, if_neg asked]

theorem eq_of_get? (distinct : (entries.map Prod.fst).Nodup)
    (names : entries.map Prod.fst = entries'.map Prod.fst)
    (values : ∀ name, get? entries name = get? entries' name) : entries = entries' := by
  induction entries generalizing entries' with
  | nil => exact (List.map_eq_nil_iff.1 names.symm).symm
  | cons e entries ih =>
    cases entries' with
    | nil => cases names
    | cons e' entries' =>
      rw [List.map_cons, List.map_cons, List.cons.injEq] at names
      rw [List.map_cons, List.nodup_cons] at distinct
      have value := values e.1
      rw [get?_cons, get?_cons, if_pos rfl, if_pos names.1.symm, Option.some.injEq] at value
      have same : e = e' := Prod.ext names.1 value
      have later : entries = entries' := by
        refine ih distinct.2 names.2 fun name => ?_
        by_cases first : e.1 = name
        · have absent : name ∉ entries.map Prod.fst := first ▸ distinct.1
          rw [get?_eq_none_iff.2 absent, eq_comm, get?_eq_none_iff, ← names.2]
          exact absent
        · have value := values name
          rwa [get?_cons, get?_cons, if_neg first, if_neg (names.1 ▸ first)] at value
      rw [same, later]

/-! ## A run of steps -/

def last? (steps : List (String × α)) (name : String) : Option α :=
  (steps.filter (·.1 = name)).getLast?.map Prod.snd

def firstPlace (steps : List (String × α)) (name : String) : Nat :=
  (steps.map Prod.fst).idxOf name

/-- Whether some entries are what a run of steps leaves: the names that it sets, in the order in which
each is set first, with the value that each is given last. -/
structure Settles (steps entries : List (String × α)) : Prop where
  named : ∀ name, name ∈ entries.map Prod.fst ↔ name ∈ steps.map Prod.fst
  order : (entries.map Prod.fst).Pairwise fun a b => firstPlace steps a < firstPlace steps b
  value : ∀ name, get? entries name = last? steps name

theorem ofList_concat (steps : List (String × α)) (s : String × α) :
    ofList (steps ++ [s]) = insert (ofList steps) s.1 s.2 := by
  rw [ofList, ofList, List.foldl_concat]

theorem last?_append (before after : List (String × α)) (name : String) :
    last? (before ++ after) name = (last? after name).or (last? before name) := by
  rw [last?, last?, last?, List.filter_append, List.getLast?_append, Option.map_or]

theorem last?_singleton (s : String × α) (name : String) :
    last? [s] name = if s.1 = name then some s.2 else none := by
  by_cases same : s.1 = name <;> simp [last?, same]

theorem last?_concat (steps : List (String × α)) (s : String × α) (name : String) :
    last? (steps ++ [s]) name = if s.1 = name then some s.2 else last? steps name := by
  rw [last?_append, last?_singleton]
  split <;> rfl

theorem exists_last? (mem : name ∈ steps.map Prod.fst) : ∃ value, last? steps name = some value := by
  obtain ⟨s, mem, named⟩ := List.mem_map.1 mem
  have nonempty : steps.filter (·.1 = name) ≠ [] :=
    List.ne_nil_of_mem (List.mem_filter.2 ⟨mem, decide_eq_true named⟩)
  rw [last?, List.getLast?_eq_some_getLast nonempty, Option.map_some]
  exact ⟨_, rfl⟩

theorem firstPlace_concat_of_mem (s : String × α) (mem : name ∈ steps.map Prod.fst) :
    firstPlace (steps ++ [s]) name = firstPlace steps name := by
  rw [firstPlace, List.map_append, List.idxOf_append_of_mem mem, firstPlace]

theorem firstPlace_lt (mem : name ∈ steps.map Prod.fst) : firstPlace steps name < steps.length := by
  rw [← List.length_map Prod.fst]
  exact List.idxOf_lt_length_iff.2 mem

theorem firstPlace_concat_of_not_mem {s : String × α} (new : s.1 ∉ steps.map Prod.fst) :
    firstPlace (steps ++ [s]) s.1 = steps.length := by
  rw [firstPlace, List.map_append, List.idxOf_append_of_notMem new]
  simp

namespace Settles

theorem nodup (settles : Settles steps entries) : (entries.map Prod.fst).Nodup :=
  settles.order.imp fun before => ne_of_apply_ne (firstPlace steps) (Nat.ne_of_lt before)

theorem nil : Settles (α := α) [] [] :=
  ⟨fun _ => Iff.rfl, .nil, fun _ => rfl⟩

theorem step (settles : Settles steps entries) (s : String × α) :
    Settles (steps ++ [s]) (insert entries s.1 s.2) := by
  have kept : (entries.map Prod.fst).Pairwise fun a b =>
      firstPlace (steps ++ [s]) a < firstPlace (steps ++ [s]) b := by
    apply settles.order.imp_of_mem
    intro a b memA memB before
    rwa [firstPlace_concat_of_mem s ((settles.named a).1 memA),
      firstPlace_concat_of_mem s ((settles.named b).1 memB)]
  have value (name : String) :
      get? (insert entries s.1 s.2) name = last? (steps ++ [s]) name := by
    rw [get?_insert, last?_concat, settles.value]
  by_cases old : s.1 ∈ entries.map Prod.fst
  · refine ⟨fun name => ?_, ?_, value⟩
    · have old' := (settles.named s.1).1 old
      rw [names_insert_of_mem _ old, settles.named, List.map_append, List.mem_append]
      refine ⟨.inl, fun mem => mem.elim id fun last => ?_⟩
      rwa [List.mem_singleton.1 last]
    · rwa [names_insert_of_mem _ old]
  · refine ⟨fun name => ?_, ?_, value⟩
    · rw [insert_of_not_mem _ old, List.map_append, List.map_append, List.mem_append,
        List.mem_append, settles.named, List.map_cons, List.map_nil]
    · rw [insert_of_not_mem _ old, List.map_append, List.pairwise_append]
      refine ⟨kept, List.pairwise_singleton _ _, fun a memA b memB => ?_⟩
      have new : s.1 ∉ steps.map Prod.fst := mt (settles.named s.1).2 old
      have known := (settles.named a).1 memA
      obtain rfl := List.mem_singleton.1 memB
      rw [firstPlace_concat_of_mem s known, firstPlace_concat_of_not_mem new]
      exact firstPlace_lt known

theorem unique (settles : Settles steps entries) (settles' : Settles steps entries') :
    entries = entries' := by
  have asymm : Std.Asymm fun a b => firstPlace steps a < firstPlace steps b :=
    ⟨fun _ _ => Nat.lt_asymm⟩
  have names : entries.map Prod.fst = entries'.map Prod.fst :=
    settles.order.eq_of_mem_iff settles'.order fun name =>
      (settles.named name).trans (settles'.named name).symm
  exact eq_of_get? settles.nodup names fun name =>
    (settles.value name).trans (settles'.value name).symm

theorem length_eq (settles : Settles steps entries) :
    entries.length = (steps.map Prod.fst).toFinset.card := by
  rw [← List.toFinset.ext settles.named, List.toFinset_card_of_nodup settles.nodup, List.length_map]

end Settles

theorem settles_ofList (steps : List (String × α)) : Settles steps (ofList steps) := by
  induction steps using List.reverseRecOn with
  | nil => exact .nil
  | append_singleton steps s ih =>
    rw [ofList_concat]
    exact ih.step s

theorem ofList_eq_of_last? (names : steps'.map Prod.fst = steps.map Prod.fst)
    (values : ∀ name, last? steps' name = last? steps name) : ofList steps' = ofList steps := by
  have places : firstPlace steps' = firstPlace steps := by
    funext name
    rw [firstPlace, firstPlace, names]
  obtain ⟨named, order, value⟩ := settles_ofList steps'
  rw [names] at named
  rw [places] at order
  exact Settles.unique ⟨named, order, fun name => (value name).trans (values name)⟩
    (settles_ofList steps)

theorem ofList_replaced {before after : List (String × α)} (later : name ∈ after.map Prod.fst)
    (value value' : α) :
    ofList (before ++ (name, value') :: after) = ofList (before ++ (name, value) :: after) := by
  refine ofList_eq_of_last? (by simp) fun other => ?_
  have through (value : α) : last? (before ++ (name, value) :: after) other =
      (last? after other).or (if name = other then some value else last? before other) := by
    rw [List.append_cons, last?_append, last?_concat]
  rw [through, through]
  by_cases same : name = other
  · obtain ⟨last, known⟩ := exists_last? (same ▸ later)
    rw [known, Option.some_or, Option.some_or]
  · rw [if_neg same, if_neg same]

theorem foldl_insert (before : Entries α) {members : Entries α}
    (names : ((before ++ members).map Prod.fst).Nodup) :
    members.foldl (fun entries s => entries.insert s.1 s.2) before = before ++ members := by
  induction members generalizing before with
  | nil => exact (List.append_nil _).symm
  | cons m members ih =>
    have new : m.1 ∉ before.map Prod.fst := by
      rw [List.map_append, List.nodup_append'] at names
      exact fun mem => names.2.2 mem List.mem_cons_self
    have onward : before ++ m :: members = before ++ [(m.1, m.2)] ++ members := by
      rw [List.append_assoc]
      rfl
    rw [onward] at names
    rw [List.foldl_cons, insert_of_not_mem m.2 new, ih _ names, onward]

end SheetLint.Entries
