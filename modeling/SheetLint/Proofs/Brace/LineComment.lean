import SheetLint.Proofs.Brace.Acceptance
import SheetLint.Proofs.Brace.Prefix
import SheetLint.Proofs.Brace.Related
import SheetLint.Proofs.Brace.Relocation

namespace SheetLint

def Comment.silent (c : Comment) : Comment :=
  { c with text := "" }

def Sheet.silent (s : Sheet) : Sheet :=
  ⟨s.nodes.map (Node.change Comment.silent id)⟩

namespace Brace

open Scan

variable {flavor : Flavor}

/-! ## Newlines that are not told apart -/

/-- The cell, or a newline whose place does not say how long its line is. -/
def blur (c : Cell) : Cell :=
  if c.char = '\n' then ⟨'\n', ⟨c.pos.line, 1⟩⟩ else c

theorem carries_blur : Carries id blur where
  char c := by
    unfold blur
    split
    next newline => exact newline.symm
    next => rfl
  pos c visible := by
    unfold blur
    split
    next newline =>
      rw [Cell.isBlank, newline] at visible
      cases visible
    next => rfl
  column _ := rfl

def Blurred (text text' : List Cell) : Prop :=
  text.map blur = text'.map blur

theorem steady_blurred : Steady Blurred where
  refl _ := rfl
  concat related c := by
    unfold Blurred at *
    rw [List.map_append, List.map_append, related]
  nil_iff related := by
    unfold Blurred at related
    rw [← List.map_eq_nil_iff (f := blur), related, List.map_eq_nil_iff]

theorem change_eq_of_reads {i j : Item} {p q : Piece} (related : i.Related Blurred j)
    (first : i.Reads p) (second : j.Reads q) :
    p.change Comment.silent id blur = q.change Comment.silent id blur := by
  have trimmed {text text' : List Cell} (h : Blurred text text') :
      (Text.trimWhile Cell.isBlank text).map blur = (Text.trimWhile Cell.isBlank text').map blur := by
    rw [← trimWhile_map carries_blur.char, h, trimWhile_map carries_blur.char]
  cases related with
  | comment slash inline =>
    obtain ⟨c, rfl, start, kind⟩ := first.eq_comment
    obtain ⟨c', rfl, start', kind'⟩ := second.eq_comment
    simp only [Piece.change, Comment.silent, start, kind, start', kind']
  | statement same ending =>
    rw [first.eq_statement.2, second.eq_statement.2, Piece.change, Piece.change, trimmed same]
  | opening same brace =>
    rw [first.eq_opening.2, second.eq_opening.2, Piece.change, Piece.change, trimmed same]
  | closing brace => rw [first.eq_closing, second.eq_closing]

theorem visible_of_reads {i : Item} {p : Piece} (reads : i.Reads p) :
    ∀ c ∈ p.text.head?, c.isBlank = false := by
  have trimmed {text : List Cell} : ∀ c ∈ (Text.trimWhile Cell.isBlank text).head?,
      c.isBlank = false := by
    intro c head
    obtain ⟨rest, split⟩ := List.head?_eq_some_iff.1 head
    exact Text.not_of_trimWhile_eq_cons split
  cases i with
  | comment slash inline =>
    obtain ⟨c, rfl, -⟩ := reads.eq_comment
    nofun
  | statement text ending =>
    rw [reads.eq_statement.2]
    exact trimmed
  | opening text brace =>
    rw [reads.eq_opening.2]
    exact trimmed
  | closing brace =>
    rw [reads.eq_closing]
    nofun

theorem map_change_of_reads {is js : List Item} {ps qs : List Piece}
    (related : List.Forall₂ (Item.Related Blurred) is js) (first : List.Forall₂ Item.Reads is ps)
    (second : List.Forall₂ Item.Reads js qs) :
    ps.map (Piece.change Comment.silent id blur) = qs.map (Piece.change Comment.silent id blur) := by
  induction related generalizing ps qs with
  | nil =>
    cases first
    cases second
    rfl
  | cons here _ ih =>
    cases first with
    | cons read first =>
      cases second with
      | cons read' second =>
        rw [List.map_cons, List.map_cons, change_eq_of_reads here read read', ih first second]

namespace Outline

variable {limit : Option Nat}

theorem addAll_silent {is : List Item} {ps : List Piece} (reads : List.Forall₂ Item.Reads is ps)
    (o : Outline) :
    (o.change Comment.silent id []).addAll flavor limit
        (ps.map (Piece.change Comment.silent id blur)) =
      ((o.addAll flavor limit ps).map (change Comment.silent id [])).mapError
        (ParseError.relocate id) := by
  apply addAll_change _ _ _ carries_blur
  intro p mem c head
  obtain ⟨i, -, read⟩ := exists_of_forall₂ reads mem
  exact carries_blur.pos c (visible_of_reads read c head)

theorem finish_silent {o o' : Outline} {nodes : List Node}
    (same : o'.change Comment.silent id [] = o.change Comment.silent id [])
    (closed : o.finish = .ok nodes) :
    ∃ nodes', o'.finish = .ok nodes' ∧
      nodes'.map (Node.change Comment.silent id) = nodes.map (Node.change Comment.silent id) := by
  have left := finish_change Comment.silent id [] o'
  have right := finish_change Comment.silent id [] o
  rw [same, right, closed] at left
  cases finished : o'.finish with
  | error e =>
    rw [finished] at left
    cases left
  | ok nodes' =>
    rw [finished] at left
    exact ⟨nodes', rfl, (Except.ok.inj left).symm⟩

theorem readAll_silent {cells cells' : List Cell} {nodes : List Node} (ordinary : Ordinary flavor)
    (related : Option.Rel (List.Forall₂ (Item.Related Blurred)) (scan flavor .start cells)
      (scan flavor .start cells'))
    (read : empty.readAll flavor limit cells = .ok nodes) :
    ∃ nodes', empty.readAll flavor limit cells' = .ok nodes' ∧
      nodes'.map (Node.change Comment.silent id) = nodes.map (Node.change Comment.silent id) := by
  obtain ⟨ps, o, pieced, built, closed⟩ := (readAll_eq_ok_iff _ _ _).1 read
  have scanned := scan_eq_pieces ordinary cells
  have scanned' := scan_eq_pieces ordinary cells'
  rw [pieced] at scanned
  obtain ⟨is, found, reads⟩ := scanned
  rw [found] at related
  cases pieced' : pieces flavor cells' with
  | error e =>
    rw [pieced'] at scanned'
    rw [scanned'] at related
    cases related
  | ok ps' =>
    rw [pieced'] at scanned'
    obtain ⟨is', found', reads'⟩ := scanned'
    rw [found'] at related
    cases related with
    | some related =>
      have same : (empty.change Comment.silent id []).addAll flavor limit _ = _ :=
        addAll_silent reads' empty
      rw [← map_change_of_reads related reads reads', addAll_silent reads, built] at same
      cases built' : empty.addAll flavor limit ps' with
      | error e =>
        rw [built'] at same
        cases same
      | ok o' =>
        rw [built'] at same
        obtain ⟨nodes', closed', silent⟩ := finish_silent (Except.ok.inj same).symm closed
        exact ⟨nodes', (readAll_eq_ok_iff _ _ _).2 ⟨ps', o', pieced', built', closed'⟩, silent⟩

theorem silent_eq {cells cells' : List Cell} (ordinary : Ordinary flavor)
    (there : Option.Rel (List.Forall₂ (Item.Related Blurred)) (scan flavor .start cells)
      (scan flavor .start cells'))
    (back : Option.Rel (List.Forall₂ (Item.Related Blurred)) (scan flavor .start cells')
      (scan flavor .start cells)) :
    ((empty.readAll flavor limit cells').map Sheet.mk).toOption.map Sheet.silent =
      ((empty.readAll flavor limit cells).map Sheet.mk).toOption.map Sheet.silent := by
  cases read : empty.readAll flavor limit cells with
  | ok nodes =>
    obtain ⟨nodes', read', same⟩ := readAll_silent ordinary there read
    rw [read']
    exact congrArg (fun nodes => some (Sheet.mk nodes)) same
  | error e =>
    cases read' : empty.readAll flavor limit cells' with
    | ok nodes' =>
      obtain ⟨nodes, accepted, -⟩ := readAll_silent ordinary back read'
      cases read.symm.trans accepted
    | error e' => rfl

end Outline

/-! ## Passing over a comment -/

def NextLine (text : List Char) : Prop :=
  ∀ c ∈ text.head?, c = '\n'

theorem scan_slash_slash (lineComments : flavor.lineComments = true) (text : List Cell) (p : Position)
    {body after : List Char} (plain : '\n' ∉ body) (ends : NextLine after) :
    scan flavor ⟨.plain, 0, text⟩ (Cell.ofChars p ('/' :: '/' :: body ++ after)) =
      (scan flavor ⟨.plain, 0, text⟩ (Cell.ofChars (p.advance ('/' :: '/' :: body)) after)).map
        ((⟨.plain, 0, text⟩ : State).commented ⟨'/', p⟩ true ++ ·) := by
  have passed : afterLine (Cell.ofChars ((p.after '/').after '/') (body ++ after)) =
      Cell.ofChars (p.advance ('/' :: '/' :: body)) after := by
    have inside : ∀ c ∈ Cell.ofChars ((p.after '/').after '/') body, (c.char != '\n') = true := by
      intro c mem
      obtain ⟨before, later, rfl, -⟩ := mem_ofChars mem
      simp only [List.mem_append, List.mem_cons, not_or] at plain
      simpa using Ne.symm plain.2.1
    rw [ofChars_append, afterLine, List.dropWhile_append_of_pos inside]
    cases after with
    | nil => rfl
    | cons c after =>
      obtain rfl : c = '\n' := ends c rfl
      rw [Cell.ofChars_cons, List.dropWhile_cons_of_neg (by simp), ← Cell.ofChars_cons]
      rfl
  have begins : (⟨.plain, 0, text⟩ : State).stepPlain flavor ⟨'/', p⟩ (some '/') =
      ((⟨.plain, 0, text⟩ : State).commented ⟨'/', p⟩ true, ⟨.line, 0, text⟩) := by
    simp [State.stepPlain, lineComments]
  rw [List.cons_append, List.cons_append, Cell.ofChars_cons, Cell.ofChars_cons, scan_plain begins,
    scan_line, passed]

theorem scan_newline (ordinary : Ordinary flavor) (text : List Cell) (p : Position)
    (rest : List Cell) : scan flavor ⟨.plain, 0, text⟩ (⟨'\n', p⟩ :: rest) =
      scan flavor (State.keep ⟨.plain, 0, text⟩ ⟨'\n', p⟩ .plain) rest :=
  scan_cons (congrArg some (stepPlain_blank ordinary _ rfl))

theorem scan_next_line (ordinary : Ordinary flavor) (text : List Cell) {p q : Position}
    (line : p.line = q.line) {after : List Char} (ends : NextLine after) :
    Option.Rel (List.Forall₂ (Item.Related Blurred))
      (scan flavor ⟨.plain, 0, text⟩ (Cell.ofChars p after))
      (scan flavor ⟨.plain, 0, text⟩ (Cell.ofChars q after)) := by
  cases after with
  | nil => exact scan_related steady_blurred ⟨rfl, rfl, rfl⟩ []
  | cons c after =>
    obtain rfl : c = '\n' := ends c rfl
    have same : p.after '\n' = q.after '\n' := by simp [Position.after, line]
    have kept : (State.keep ⟨.plain, 0, text⟩ ⟨'\n', p⟩ .plain).Related Blurred
        (State.keep ⟨.plain, 0, text⟩ ⟨'\n', q⟩ .plain) := by
      refine ⟨rfl, rfl, ?_⟩
      unfold State.keep
      split
      · rfl
      · simp [Blurred, blur, line]
    rw [Cell.ofChars_cons, Cell.ofChars_cons, same, scan_newline ordinary, scan_newline ordinary]
    exact scan_related steady_blurred kept _

theorem scan_bodies (ordinary : Ordinary flavor) (lineComments : flavor.lineComments = true)
    {before body body' after : List Char} {is : List Item} {text : List Cell}
    (stands : run flavor .start (some '/') (Cell.ofChars .start before) =
      some (is, ⟨.plain, 0, text⟩))
    (plain : '\n' ∉ body) (plain' : '\n' ∉ body') (ends : NextLine after) :
    Option.Rel (List.Forall₂ (Item.Related Blurred))
      (scan flavor .start (Cell.ofChars .start (before ++ ('/' :: '/' :: body ++ after))))
      (scan flavor .start (Cell.ofChars .start (before ++ ('/' :: '/' :: body' ++ after)))) := by
  have whole {body : List Char} (plain : '\n' ∉ body) := scan_slash_slash lineComments text
    (Position.start.advance before) plain ends
  have scanned (body : List Char) :
      scan flavor .start (Cell.ofChars .start (before ++ ('/' :: '/' :: body ++ after))) =
        (scan flavor ⟨.plain, 0, text⟩ (Cell.ofChars (Position.start.advance before)
          ('/' :: '/' :: body ++ after))).map (is ++ ·) := by
    rw [ofChars_append, List.cons_append, Cell.ofChars_cons]
    exact scan_of_run stands
  have line (body : List Char) (plain : '\n' ∉ body) :
      ((Position.start.advance before).advance ('/' :: '/' :: body)).line =
        (Position.start.advance before).line := by
    rw [Position.advance_of_not_mem (by simpa using plain)]
  rw [scanned, scanned, whole plain, whole plain']
  apply related_after steady_blurred
  apply related_after steady_blurred
  -- What differs behind the bodies is the column of the newline, and `Blurred` does not tell it.
  exact scan_next_line ordinary text ((line body plain).trans (line body' plain').symm) ends

/-- A comment up to the end of its line, outside of all other constructs and of parentheses: with another
body the text is accepted if and only if it is with this one, and its tree is the same but for what
comments say. -/
theorem parse_line_comment {d : Dialect} (h : d.flavor? = some flavor)
    (lineComments : flavor.lineComments = true) {before body body' after : String}
    {is : List Item} {text : List Cell}
    (stands : run flavor .start (some '/')
      (Cell.ofChars .start (Text.dropByteOrderMark before.toList)) = some (is, ⟨.plain, 0, text⟩))
    (plain : '\n' ∉ body.toList) (plain' : '\n' ∉ body'.toList) (ends : NextLine after.toList) :
    (d.parse (before ++ "//" ++ body' ++ after)).toOption.map Sheet.silent =
      (d.parse (before ++ "//" ++ body ++ after)).toOption.map Sheet.silent := by
  have ordinary := ordinary_of_flavor? h
  have source (body : String) : Text.dropByteOrderMark (before ++ "//" ++ body ++ after).toList =
      Text.dropByteOrderMark before.toList ++ ('/' :: '/' :: body.toList ++ after.toList) := by
    have whole : (before ++ "//" ++ body ++ after).toList =
        before.toList ++ ('/' :: '/' :: body.toList ++ after.toList) := by
      simp [String.toList_append]
    rw [whole, Text.dropByteOrderMark_append fun _ => by simp]
  simp only [Dialect.parse, h, parse, parseWithin, source]
  exact Outline.silent_eq ordinary (scan_bodies ordinary lineComments stands plain plain' ends)
    (scan_bodies ordinary lineComments stands plain' plain ends)

theorem parse_line_comment_in_value :
    Dialect.scss.flavor? = some .scss ∧
    run .scss .start (some '/') (Cell.ofChars .start "a:b ".toList) =
      some ([], ⟨.plain, 0, Cell.ofChars .start "a:b ".toList⟩) ∧
    (Dialect.scss.parse ("a:b " ++ "//" ++ "it's" ++ "\n c;")).toOption.map Sheet.silent =
      (Dialect.scss.parse ("a:b " ++ "//" ++ "so" ++ "\n c;")).toOption.map Sheet.silent :=
  ⟨rfl, rfl, parse_line_comment rfl rfl rfl (by decide) (by decide) (by simp [NextLine])⟩

theorem parse_slashes_in_parens :
    run .scss .start (some '/') (Cell.ofChars .start "a:(".toList) =
      some ([], ⟨.plain, 1, Cell.ofChars .start "a:(".toList⟩) ∧
    (∃ sheet, Dialect.scss.parse ("a:(" ++ "//" ++ "x" ++ "\n)") = .ok sheet) ∧
    Dialect.scss.parse ("a:(" ++ "//" ++ "'" ++ "\n)") = .error ⟨.unclosedString, ⟨1, 6⟩⟩ := by
  have closed : readStatement .scss 0 [] (Cell.ofChars .start "a:(//x\n)".toList) =
      .ok ((Cell.ofChars .start "a:(//x\n)".toList).reverse, []) := by
    simp [readStatement, Flavor.scss, startsWith]
  have unclosed : readStatement .scss 0 [] (Cell.ofChars .start "a:(//'\n)".toList) =
      .error ⟨.unclosedString, ⟨1, 6⟩⟩ := by
    simp [readStatement, readString, Flavor.scss, startsWith, Position.start, Position.after]
  refine ⟨rfl, ⟨_, parse_of_statement rfl rfl (by decide) closed rfl⟩, ?_⟩
  have next : Piece.next .scss (Cell.ofChars .start "a:(//'\n)".toList) =
      .error ⟨.unclosedString, ⟨1, 6⟩⟩ := by
    rw [next_of_head rfl rfl (by decide), unclosed]
    rfl
  have failed : Outline.empty.readAll .scss (some Sheet.maxNesting)
      (Cell.ofChars .start "a:(//'\n)".toList) = .error ⟨.unclosedString, ⟨1, 6⟩⟩ := by
    rw [Outline.readAll_eq, next]
    rfl
  exact congrArg (Except.map Sheet.mk) failed

end Brace

end SheetLint
