import SheetLint.Proofs.Path.Components

namespace SheetLint.Path

variable {source base : String} {start rest all : List Component} {ss : List (List Char)}

/-- Whether a path is that of a base, with components after it that do not lead out of the base. -/
structure Below (base source : String) (rest : List Component) : Prop where
  absolute : isAbsolute source = true
  absolute_base : isAbsolute base = true
  split : components source = components base ++ rest
  onward : rest.head? ≠ some .parent

theorem afterStart?_eq_some_iff : afterStart? start all = some rest ↔ all = start ++ rest := by
  induction start generalizing all with
  | nil => simp [afterStart?]
  | cons a start ih =>
    cases all with
    | nil => simp [afterStart?]
    | cons b all =>
      rw [afterStart?, List.cons_append, List.cons.injEq]
      split
      next same => simp [ih, same]
      next other => simp [Ne.symm other]

theorem display_of_below (below : Below base source rest) :
    display source (some base) = "/".intercalate (rest.map Component.text) := by
  have after := afterStart?_eq_some_iff.2 below.split
  simp only [display, below.absolute, below.absolute_base, Bool.and_true, if_true, after]
  split
  next cut => cases cut
  next out =>
    cases out
    exact absurd rfl below.onward
  next same =>
    cases same
    rfl

theorem display_of_not_below (out : ∀ rest, ¬Below base source rest) :
    display source (some base) = source := by
  unfold display
  simp only
  split
  next absolute =>
    rw [Bool.and_eq_true] at absolute
    split
    next => rfl
    next => rfl
    next rest onward after =>
      refine absurd ?_ (out rest)
      refine ⟨absolute.1, absolute.2, afterStart?_eq_some_iff.1 after, ?_⟩
      intro head
      obtain ⟨more, rfl⟩ := List.head?_eq_some_iff.1 head
      exact onward more rfl
  next => rfl

theorem text_componentOf (segment : List Char) : (componentOf segment).text.toList = segment := by
  unfold componentOf
  split
  next dots => rw [dots]; rfl
  next => exact String.toList_ofList

theorem intercalate_text (ss : List (List Char)) :
    "/".intercalate ((ss.map componentOf).map Component.text) = ofSegments ss := by
  have texts : ((ss.map componentOf).map Component.text).map String.toList = ss := by
    rw [List.map_map, List.map_map]
    exact List.map_id'' text_componentOf ss
  rw [← String.toList_inj, String.toList_intercalate, texts]
  exact String.toList_ofList.symm

def Solid (ss : List (List Char)) : Prop :=
  ∀ s ∈ ss, '/' ∉ s ∧ isIdle s = false

theorem Solid.segments_ofSegments (solid : Solid ss) (nonempty : ss ≠ []) :
    segments (ofSegments ss) = ss :=
  Path.segments_ofSegments nonempty fun s mem => (solid s mem).1

theorem Solid.laterComponents_eq (solid : Solid ss) : laterComponents ss = ss.map componentOf :=
  laterComponents_of_not_idle fun s mem => (solid s mem).2

theorem Solid.isAbsolute_ofSegments (solid : Solid ss) : isAbsolute (ofSegments ss) = false := by
  cases ss with
  | nil => rfl
  | cons first rest =>
    have split := solid.segments_ofSegments (List.cons_ne_nil first rest)
    rw [← Bool.not_eq_true]
    intro absolute
    cases first_of_isAbsolute split absolute
    cases (solid [] List.mem_cons_self).2

theorem Solid.later_segments (solid : Solid ss) :
    laterComponents (segments (ofSegments ss)) = ss.map componentOf := by
  cases ss with
  | nil => rfl
  | cons first rest =>
    rw [solid.segments_ofSegments (List.cons_ne_nil first rest), solid.laterComponents_eq]

theorem Solid.components_ofSegments (solid : Solid ss) :
    components (ofSegments ss) = ss.map componentOf := by
  cases ss with
  | nil => rfl
  | cons first rest =>
    have split := solid.segments_ofSegments (List.cons_ne_nil first rest)
    have named : first ≠ ['.'] := by
      rintro rfl
      cases (solid ['.'] List.mem_cons_self).2
    rw [components_eq split, solid.isAbsolute_ofSegments, frontComponents, if_neg Bool.false_ne_true,
      if_neg named, ← laterComponents_append, List.singleton_append, solid.laterComponents_eq]

theorem components_of_isAbsolute {path : String} (absolute : isAbsolute path = true) :
    ∃ ss, Solid ss ∧ components path = .root :: ss.map componentOf := by
  obtain ⟨first, rest, split⟩ := exists_segments path
  refine ⟨rest.filter fun s => !isIdle s, ?_, ?_⟩
  · intro s mem
    obtain ⟨mem, solid⟩ := List.mem_filter.1 mem
    have mem' : s ∈ segments path := by
      rw [split]
      exact List.mem_cons_of_mem first mem
    exact ⟨plain_of_mem_segments mem', by simpa using solid⟩
  · rw [components_eq split, absolute]
    rfl

theorem Below.exists_shown (below : Below base source rest) :
    ∃ ss, Solid ss ∧ rest = ss.map componentOf ∧ display source (some base) = ofSegments ss := by
  obtain ⟨whole, solid, source'⟩ := components_of_isAbsolute below.absolute
  obtain ⟨front, -, base'⟩ := components_of_isAbsolute below.absolute_base
  have split := below.split
  rw [source', base', List.cons_append, List.cons.injEq] at split
  obtain ⟨before, ss, rfl, -, rfl⟩ := List.map_eq_append_iff.1 split.2
  refine ⟨ss, fun s mem => solid s (List.mem_append_right before mem), rfl, ?_⟩
  rw [display_of_below below, intercalate_text]

/-- A path below the base is shown as its components after those of the base, and what is shown has
these components. Every other path is shown as it is. Joined to the base, what is shown of an absolute
path has the components of the path. -/
theorem display_leads_back (source base : String) :
    (∀ rest, Below base source rest →
      display source (some base) = "/".intercalate (rest.map Component.text) ∧
      isAbsolute (display source (some base)) = false ∧
      components (display source (some base)) = rest) ∧
    ((∀ rest, ¬Below base source rest) → display source (some base) = source) ∧
    (isAbsolute source = true →
      components (join base (display source (some base))) = components source) ∧
    display source none = source := by
  refine ⟨fun rest below => ⟨display_of_below below, ?_⟩, display_of_not_below, ?_, rfl⟩
  · obtain ⟨ss, solid, rfl, shown⟩ := below.exists_shown
    rw [shown]
    exact ⟨solid.isAbsolute_ofSegments, solid.components_ofSegments⟩
  · intro absolute
    by_cases below : ∃ rest, Below base source rest
    · obtain ⟨rest, below⟩ := below
      obtain ⟨ss, solid, rfl, shown⟩ := below.exists_shown
      have nonempty : base ≠ "" := by
        rintro rfl
        cases below.absolute_base
      rw [shown, components_join nonempty solid.isAbsolute_ofSegments, solid.later_segments, below.split]
    · rw [display_of_not_below (not_exists.1 below), join_of_isAbsolute base absolute]

theorem display_leads_back_twisted :
    display "/work//site/./css/../a.css" (some "/work/site/") = "css/../a.css" ∧
      display "/work/site" (some "/work/site") = "" ∧
      display "/work/sites/a.css" (some "/work/site") = "/work/sites/a.css" ∧
      components (join "/work/site/" "css/../a.css") = components "/work//site/./css/../a.css" := by
  obtain ⟨shown, -, back, -⟩ := display_leads_back "/work//site/./css/../a.css" "/work/site/"
  obtain ⟨shown', -⟩ := display_leads_back "/work/site" "/work/site"
  obtain ⟨-, whole, -⟩ := display_leads_back "/work/sites/a.css" "/work/site"
  have below : Below "/work/site/" "/work//site/./css/../a.css"
      [.name "css", .parent, .name "a.css"] := ⟨rfl, rfl, by decide, nofun⟩
  have text : display "/work//site/./css/../a.css" (some "/work/site/") = "css/../a.css" :=
    (shown _ below).1
  refine ⟨text, (shown' [] ⟨rfl, rfl, rfl, nofun⟩).1, whole ?_, text ▸ back rfl⟩
  rintro rest ⟨-, -, split, -⟩
  cases split

end SheetLint.Path
