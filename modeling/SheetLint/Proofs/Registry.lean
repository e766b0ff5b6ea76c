import SheetLint.Proofs.Config.Settings
import SheetLint.Proofs.Planning
import SheetLint.Proofs.Tree

namespace SheetLint

namespace Registry

variable {history rules rules' : List Rule} {rule : Rule} {name : String}

def last? (history : List Rule) (name : String) : Option Rule :=
  (history.filter (·.name = name)).getLast?

def sinceLast (history : List Rule) (name : String) : Nat :=
  (history.map Rule.name).reverse.idxOf name

/-- Whether some rules are those that a history of registrations leaves: for each name the last that was
registered under it, in the order of these registrations. -/
structure Keeps (history rules : List Rule) : Prop where
  named : ∀ name, name ∈ rules.map Rule.name ↔ name ∈ history.map Rule.name
  order : (rules.map Rule.name).Pairwise fun a b => sinceLast history b < sinceLast history a
  latest : ∀ rule ∈ rules, last? history rule.name = some rule

def registerAll (r : Registry) (added : List Rule) : Registry :=
  added.foldl register r

/-! ## One registration -/

theorem last?_concat (history : List Rule) (rule : Rule) (name : String) :
    last? (history ++ [rule]) name = if rule.name = name then some rule else last? history name := by
  rw [last?, last?, List.filter_append]
  by_cases same : rule.name = name <;> simp [same]

theorem last?_eq_none_iff : last? history name = none ↔ name ∉ history.map Rule.name := by
  rw [last?, List.getLast?_eq_none_iff, List.filter_eq_nil_iff, List.mem_map]
  simp only [decide_eq_true_eq, not_exists, not_and]

theorem sinceLast_concat_self (history : List Rule) (rule : Rule) :
    sinceLast (history ++ [rule]) rule.name = 0 := by
  simp [sinceLast]

theorem sinceLast_concat_of_ne (history : List Rule) (other : rule.name ≠ name) :
    sinceLast (history ++ [rule]) name = sinceLast history name + 1 := by
  simp [sinceLast, other]

theorem rules_register (r : Registry) (rule : Rule) :
    (r.register rule).rules = r.rules.filter (·.name != rule.name) ++ [rule] :=
  rfl

theorem names_register (r : Registry) (rule : Rule) : (r.register rule).rules.map Rule.name =
    (r.rules.map Rule.name).filter (· != rule.name) ++ [rule.name] := by
  rw [rules_register, List.map_append, List.filter_map]
  rfl

namespace Keeps

theorem nil : Keeps [] [] :=
  ⟨fun _ => Iff.rfl, .nil, List.forall_mem_nil _⟩

theorem register {r : Registry} (keeps : Keeps history r.rules) (rule : Rule) :
    Keeps (history ++ [rule]) (r.register rule).rules := by
  refine ⟨fun name => ?_, ?_, fun kept mem => ?_⟩
  · rw [names_register, List.map_append, List.mem_append, List.mem_append, List.mem_filter,
      keeps.named, bne_iff_ne, List.mem_singleton, List.map_singleton, List.mem_singleton]
    tauto
  · rw [names_register, List.pairwise_append]
    refine ⟨?_, List.pairwise_singleton _ _, fun a memA b memB => ?_⟩
    · apply (keeps.order.filter _).imp_of_mem
      intro a b memA memB later
      have otherA := bne_iff_ne.1 (List.mem_filter.1 memA).2
      have otherB := bne_iff_ne.1 (List.mem_filter.1 memB).2
      rw [sinceLast_concat_of_ne _ otherA.symm, sinceLast_concat_of_ne _ otherB.symm]
      exact Nat.succ_lt_succ later
    · have other := bne_iff_ne.1 (List.mem_filter.1 memA).2
      rw [List.mem_singleton.1 memB, sinceLast_concat_self, sinceLast_concat_of_ne _ other.symm]
      exact Nat.succ_pos _
  · rw [last?_concat]
    rw [rules_register, List.mem_append, List.mem_filter, List.mem_singleton] at mem
    rcases mem with ⟨mem, other⟩ | rfl
    · rw [if_neg (bne_iff_ne.1 other).symm, keeps.latest kept mem]
    · rw [if_pos rfl]

/-! ## A run of registrations -/

theorem registerAll {r : Registry} (keeps : Keeps history r.rules) (added : List Rule) :
    Keeps (history ++ added) (r.registerAll added).rules := by
  induction added generalizing history r with
  | nil => rwa [List.append_nil]
  | cons rule added ih =>
    rw [List.append_cons]
    exact ih (keeps.register rule)

theorem of_begun {start : Registry} (begun : start = .empty ∨ start = .builtIn) (added : List Rule) :
    Keeps (start.rules ++ added) (start.registerAll added).rules := by
  rcases begun with rfl | rfl
  · exact nil.registerAll added
  · have builtIn : Keeps Registry.builtIn.rules Registry.builtIn.rules :=
      nil.registerAll Registry.builtIn.rules
    exact builtIn.registerAll added

theorem nodup (keeps : Keeps history rules) : (rules.map Rule.name).Nodup :=
  keeps.order.imp fun later => ne_of_apply_ne (sinceLast history) (Nat.ne_of_gt later)

theorem unique (keeps : Keeps history rules) (keeps' : Keeps history rules') : rules = rules' := by
  have asymm : Std.Asymm fun a b => sinceLast history b < sinceLast history a :=
    ⟨fun _ _ => Nat.lt_asymm⟩
  have names : rules.map Rule.name = rules'.map Rule.name :=
    keeps.order.eq_of_mem_iff keeps'.order fun name =>
      (keeps.named name).trans (keeps'.named name).symm
  have latest {rules : List Rule} (keeps : Keeps history rules) :
      rules.map some = (rules.map Rule.name).map (last? history) := by
    rw [List.map_map]
    exact List.map_congr_left fun rule mem => (keeps.latest rule mem).symm
  apply List.map_injective_iff.2 (Option.some_injective Rule)
  rw [latest keeps, latest keeps', names]

theorem get?_eq {r : Registry} (keeps : Keeps history r.rules) (name : String) :
    r.get? name = last? history name := by
  rw [get?]
  cases found : r.rules.find? (·.name = name) with
  | some rule =>
    have named : rule.name = name := by simpa using List.find?_some found
    rw [← named, keeps.latest rule (List.mem_of_find?_eq_some found)]
  | none =>
    rw [eq_comm, last?_eq_none_iff, ← keeps.named, List.mem_map]
    rintro ⟨rule, mem, named⟩
    simpa [named] using List.find?_eq_none.1 found rule mem

theorem size_eq {r : Registry} (keeps : Keeps history r.rules) :
    r.size = (history.map Rule.name).toFinset.card := by
  rw [← List.toFinset.ext keeps.named, List.toFinset_card_of_nodup keeps.nodup, List.length_map, size]

theorem mem_descriptions {r : Registry} (keeps : Keeps history r.rules) {d : String × String} :
    d ∈ r.descriptions ↔ ∃ rule, last? history d.1 = some rule ∧ rule.description = d.2 := by
  rw [descriptions, List.mem_map]
  constructor
  · rintro ⟨rule, mem, rfl⟩
    exact ⟨rule, keeps.latest rule mem, rfl⟩
  · rintro ⟨rule, latest, described⟩
    rw [← keeps.get?_eq] at latest
    refine ⟨rule, List.mem_of_find?_eq_some latest, Prod.ext ?_ described⟩
    exact Plan.name_of_get? latest

end Keeps

end Registry

/-! ## Plans -/

namespace Plan

variable {registry registry' : Registry} {default : Severity}

theorem ofSettings_congr {all : List (String × Setting)}
    (same : ∀ s ∈ all, registry'.get? s.1 = registry.get? s.1) :
    ofSettings registry' default all = ofSettings registry default all := by
  induction all with
  | nil => rfl
  | cons s all ih =>
    rw [List.forall_mem_cons] at same
    rw [ofSettings, ofSettings, ofSetting, ofSetting, same.1, ih same.2]

theorem ofConfig_congr {config : Config}
    (same : ∀ entry ∈ config.rules, registry'.get? entry.1 = registry.get? entry.1) :
    ofConfig registry' config = ofConfig registry config := by
  rw [ofConfig, ofConfig]
  cases read : settings config.rules with
  | error e => rfl
  | ok all =>
    apply ofSettings_congr
    intro s mem
    obtain ⟨entry, among, listed⟩ := exists_of_forall₂ (settings_eq_ok_iff.1 read) mem
    rw [listed.name, same entry among]

theorem get?_eq_none_of_unknown {config : Config} {name : String}
    (refused : ofConfig registry config = .error (.unknownRule name)) : registry.get? name = none := by
  rw [ofConfig_eq_error_iff] at refused
  simp only [firstWrong_cons, not_firstWrong_nil, and_false, or_false, id_eq] at refused
  rcases refused with ⟨_, _, _, -, ⟨⟩, -⟩ | ⟨-, _, _, _, -, absent, -⟩
  cases absent with
  | rule absent => exact absent

end Plan

namespace Registry

structure Reflects (history : List Rule) (r : Registry) : Prop where
  kept : ∀ rules, r.rules = rules ↔ Keeps history rules
  distinct : (r.rules.map Rule.name).Nodup
  found : ∀ name, r.get? name = last? history name
  size : r.size = (history.map Rule.name).toFinset.card
  described : r.descriptions.map Prod.fst = r.rules.map Rule.name
  descriptions : ∀ d, d ∈ r.descriptions ↔
    ∃ rule, last? history d.1 = some rule ∧ rule.description = d.2
  planned : ∀ config plan, Plan.ofConfig r config = .ok plan →
    List.Forall₂ (fun entry p => last? history entry.1 = some p.rule)
      (config.rules.filter (!Setting.isOff ·.2)) plan
  unknown : ∀ config name, Plan.ofConfig r config = .error (.unknownRule name) →
    last? history name = none

theorem Keeps.reflects {r : Registry} (keeps : Keeps history r.rules) : Reflects history r where
  kept rules := by
    refine ⟨?_, keeps.unique⟩
    rintro rfl
    exact keeps
  distinct := keeps.nodup
  found := keeps.get?_eq
  size := keeps.size_eq
  described := by
    rw [Registry.descriptions, List.map_map]
    rfl
  descriptions d := keeps.mem_descriptions
  planned config plan made := by
    obtain ⟨passes, rfl⟩ := Plan.ofConfig_eq_ok_iff.1 made
    refine (Plan.forall₂_planned passes).imp fun entry p planned => ?_
    rw [← keeps.get?_eq, planned.rule]
  unknown config name refused := by
    rw [← keeps.get?_eq]
    exact Plan.get?_eq_none_of_unknown refused

/-- Whatever is registered, in a registry without rules or in one with the built-in rules, which then
count as registered first, each name has its last rule. Two registries in which the names of a
configuration have the same last rules make the same plan of it, or refuse it for the same reason. -/
theorem reflects_registrations {start : Registry} (begun : start = empty ∨ start = builtIn)
    (added : List Rule) :
    Reflects (start.rules ++ added) (start.registerAll added) ∧
    ∀ start' added', start' = empty ∨ start' = builtIn → ∀ config : Config,
      (∀ entry ∈ config.rules,
        last? (start'.rules ++ added') entry.1 = last? (start.rules ++ added) entry.1) →
      Plan.ofConfig (start'.registerAll added') config =
        Plan.ofConfig (start.registerAll added) config := by
  have keeps := Keeps.of_begun begun added
  refine ⟨keeps.reflects, ?_⟩
  intro start' added' begun' config same
  apply Plan.ofConfig_congr
  intro entry mem
  rw [(Keeps.of_begun begun' added').get?_eq, keeps.get?_eq, same entry mem]

def replacement : Rule :=
  { Rule.blockNoEmpty with description := "replacement" }

theorem reflects_replacement :
    Reflects (builtIn.rules ++ [replacement]) (builtIn.registerAll [replacement]) ∧
    (builtIn.registerAll [replacement]).rules.map Rule.name = ["color-no-invalid-hex",
      "comment-no-empty", "declaration-block-no-duplicate-properties", "length-zero-no-unit",
      "block-no-empty"] ∧
    (builtIn.registerAll [replacement]).get? "block-no-empty" = some replacement ∧
    (builtIn.registerAll [replacement]).size = 5 ∧
    Plan.ofConfig (empty.registerAll [replacement]) ⟨[("block-no-empty", .bool true)], none⟩ =
      Plan.ofConfig (builtIn.registerAll [replacement]) ⟨[("block-no-empty", .bool true)], none⟩ := by
  obtain ⟨reflects, same⟩ := reflects_registrations (.inr rfl) [replacement]
  refine ⟨reflects, rfl, (reflects.found _).trans rfl, reflects.size.trans (by decide), ?_⟩
  exact same empty [replacement] (.inl rfl) _ (List.forall_mem_singleton.2 rfl)

end Registry

end SheetLint
