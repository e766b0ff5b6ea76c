import SheetLint.Proofs.Brace.Collected
import SheetLint.Proofs.Brace.Reading

namespace SheetLint.Brace.Scan

variable {flavor : Flavor} {r : List Cell → List Cell → Prop}

structure Steady (r : List Cell → List Cell → Prop) : Prop where
  refl : ∀ text, r text text
  concat : ∀ {text text'}, r text text' → ∀ c, r (text ++ [c]) (text' ++ [c])
  nil_iff : ∀ {text text'}, r text text' → (text = [] ↔ text' = [])

structure State.Related (r : List Cell → List Cell → Prop) (s t : State) : Prop where
  mode : s.mode = t.mode
  parens : s.parens = t.parens
  text : r s.text t.text

inductive Item.Related (r : List Cell → List Cell → Prop) : Item → Item → Prop
  | comment (slash : Cell) (inline : Bool) : Related r (.comment slash inline) (.comment slash inline)
  | statement {text text' : List Cell} (related : r text text') (ending : Option Cell) :
    Related r (.statement text ending) (.statement text' ending)
  | opening {text text' : List Cell} (related : r text text') (brace : Cell) :
    Related r (.opening text brace) (.opening text' brace)
  | closing (brace : Cell) : Related r (.closing brace) (.closing brace)

def Parallel (r : List Cell → List Cell → Prop) (p q : List Item × State) : Prop :=
  List.Forall₂ (Item.Related r) p.1 q.1 ∧ p.2.Related r q.2

theorem Parallel.ite {p q p' q' : List Item × State} {condition : Prop} [Decidable condition]
    (yes : Parallel r p q) (no : Parallel r p' q') :
    Parallel r (if condition then p else p') (if condition then q else q') := by
  split
  · exact yes
  · exact no

section Steady

variable (steady : Steady r) {s t : State}

include steady

theorem Item.Related.refl (i : Item) : i.Related r i := by
  cases i with
  | comment slash inline => exact .comment slash inline
  | statement text ending => exact .statement (steady.refl text) ending
  | opening text brace => exact .opening (steady.refl text) brace
  | closing brace => exact .closing brace

theorem related_after (passed : List Item) {x y : Option (List Item)}
    (h : Option.Rel (List.Forall₂ (Item.Related r)) x y) :
    Option.Rel (List.Forall₂ (Item.Related r)) (x.map (passed ++ ·)) (y.map (passed ++ ·)) := by
  cases h with
  | none => exact .none
  | some related =>
    exact .some (List.rel_append (List.forall₂_same.2 fun i _ => .refl steady i) related)

theorem Steady.start : State.start.Related r .start :=
  ⟨rfl, rfl, steady.refl []⟩

theorem State.Related.take (h : s.Related r t) (c : Cell) (mode : Mode) :
    (s.take c mode).Related r (t.take c mode) :=
  ⟨rfl, h.parens, steady.concat h.text c⟩

theorem State.Related.keep (h : s.Related r t) (c : Cell) (mode : Mode) :
    (s.keep c mode).Related r (t.keep c mode) := by
  refine ⟨rfl, h.parens, ?_⟩
  unfold State.keep
  simp only [steady.nil_iff h.text]
  split
  · exact steady.refl []
  · exact steady.concat h.text c

theorem State.Related.ended (h : s.Related r t) (ending : Option Cell) :
    List.Forall₂ (Item.Related r) (s.ended ending) (t.ended ending) := by
  unfold State.ended
  simp only [steady.nil_iff h.text]
  split
  · exact .nil
  · exact .cons (.statement h.text ending) .nil

theorem State.Related.commented (h : s.Related r t) (slash : Cell) (inline : Bool) :
    List.Forall₂ (Item.Related r) (s.commented slash inline) (t.commented slash inline) := by
  unfold State.commented
  simp only [steady.nil_iff h.text]
  split
  · exact .cons (.comment slash inline) .nil
  · exact .nil

theorem stepPlain_related (h : s.Related r t) (c : Cell) (next : Option Char) :
    Parallel r (s.stepPlain flavor c next) (t.stepPlain flavor c next) := by
  have taken (mode : Mode) := h.take steady c mode
  unfold State.stepPlain
  rw [h.parens]
  refine .ite ⟨.nil, taken _⟩ ?_
  refine .ite ⟨h.commented steady c false, h.keep steady c _⟩ ?_
  refine .ite ⟨h.commented steady c true, rfl, rfl, h.text⟩ ?_
  refine .ite ⟨.nil, taken _⟩ ?_
  refine .ite ⟨.nil, rfl, rfl, (taken .plain).text⟩ ?_
  refine .ite ⟨.nil, rfl, rfl, (taken .plain).text⟩ ?_
  refine .ite ⟨h.ended steady _, steady.start⟩ ?_
  refine .ite ⟨.cons (.opening h.text c) .nil, steady.start⟩ ?_
  refine .ite ⟨List.rel_append (h.ended steady _) (.cons (.closing c) .nil), steady.start⟩ ?_
  exact .ite ⟨.nil, h.keep steady c _⟩ ⟨.nil, taken _⟩

theorem step_related (h : s.Related r t) (c : Cell) (next : Option Char) :
    Option.Rel (Parallel r) (s.step flavor c next) (t.step flavor c next) := by
  have take (mode : Mode) : Parallel r ([], s.take c mode) ([], t.take c mode) :=
    ⟨.nil, h.take steady c mode⟩
  have keep (mode : Mode) : Parallel r ([], s.keep c mode) ([], t.keep c mode) :=
    ⟨.nil, h.keep steady c mode⟩
  unfold State.step
  rw [← h.mode]
  split
  next => exact .some (stepPlain_related steady h c next)
  next quote inside =>
    split_ifs
    · exact .none
    · exact .some (take _)
    · exact .some (take _)
    · exact .some (take _)
  next => exact .some (take _)
  next => exact .some (keep _)
  next => exact .some (keep _)
  next => exact .some (keep _)
  next => exact .some ⟨.nil, rfl, h.parens, h.text⟩
  next =>
    split_ifs
    · exact .some (take _)
    · exact .some (take _)
    · exact .some (take _)
    · exact .some (take _)

theorem finish_related (h : s.Related r t) :
    Option.Rel (List.Forall₂ (Item.Related r)) s.finish t.finish := by
  unfold State.finish
  rw [← h.mode]
  split
  · exact .some (h.ended steady none)
  · exact .some (h.ended steady none)
  · exact .none

theorem scan_related (h : s.Related r t) (cells : List Cell) :
    Option.Rel (List.Forall₂ (Item.Related r)) (scan flavor s cells) (scan flavor t cells) := by
  induction cells generalizing s t with
  | nil => exact finish_related steady h
  | cons c rest ih =>
    -- A step looks at the text of the statement only to see whether there is any.
    have step : Option.Rel (Parallel r) (s.step flavor c (rest.head?.map Cell.char))
        (t.step flavor c (rest.head?.map Cell.char)) := step_related steady h c _
    rw [scan, scan]
    generalize s.step flavor c (rest.head?.map Cell.char) = p at *
    generalize t.step flavor c (rest.head?.map Cell.char) = q at *
    cases step with
    | none => exact .none
    | @some p q alike =>
      have later := ih alike.2
      simp only
      generalize scan flavor p.2 rest = is at *
      generalize scan flavor q.2 rest = js at *
      cases later with
      | none => exact .none
      | some related => exact .some (List.rel_append alike.1 related)

end Steady

end SheetLint.Brace.Scan
