import SheetLint.Proofs.Brace.Order
import SheetLint.Proofs.Brace.Prefix
import SheetLint.Proofs.Brace.Related
import SheetLint.Proofs.Brace.Returns
import SheetLint.Proofs.Value.Search

namespace SheetLint

open Value (comment Quiet)

theorem Sheet.declarations_eq (s : Sheet) :
    s.declarations = (s.walk.map Node.bare).filterMap Node.declaration? := by
  rw [declarations, List.filterMap_map]
  congr 1
  funext n
  cases n <;> rfl

namespace Brace

open Scan

variable {flavor : Flavor}

/-! ## Reading over a comment -/

theorem readComment_ofChars {body : List Char} (unclosed : ¬['*', '/'] <:+: body)
    (buffer : List Cell) (p : Position) (after : List Char) :
    readComment buffer (Cell.ofChars p (body ++ '*' :: '/' :: after)) =
      some ((Cell.ofChars p (body ++ ['*', '/'])).reverse ++ buffer,
        Cell.ofChars (p.advance (body ++ ['*', '/'])) after) := by
  induction body generalizing buffer p with
  | nil => simp [readComment]
  | cons c body ih =>
    have later : ¬['*', '/'] <:+: body := fun inside =>
      unclosed (inside.trans (List.suffix_cons c body).isInfix)
    obtain ⟨d, more, next⟩ : ∃ d more, body ++ '*' :: '/' :: after = d :: more := by
      cases body <;> exact ⟨_, _, rfl⟩
    have open' : ¬(c = '*' ∧ d = '/') := by
      rintro ⟨rfl, rfl⟩
      cases body with
      | nil => cases next
      | cons e body =>
        cases next
        exact unclosed ⟨[], body, rfl⟩
    have rest := ih later (⟨c, p⟩ :: buffer) (p.after c)
    rw [next, Cell.ofChars_cons] at rest
    rw [List.cons_append, next, Cell.ofChars_cons, Cell.ofChars_cons, readComment, if_neg open', rest]
    simp

theorem scan_value_comment {parens : Nat} {text : List Cell} (begun : text ≠ []) (p : Position)
    {body : List Char} (unclosed : ¬['*', '/'] <:+: body) (after : List Char) :
    scan flavor ⟨.plain, parens, text⟩ (Cell.ofChars p (comment body ++ after)) =
      scan flavor ⟨.plain, parens, text ++ Cell.ofChars p (comment body)⟩
        (Cell.ofChars (p.advance (comment body)) after) := by
  have whole : comment body ++ after = '/' :: '*' :: (body ++ '*' :: '/' :: after) := by simp [comment]
  have begun' : text.reverse ≠ [] := by simpa using begun
  have read := readComment_ofChars unclosed (⟨'*', p.after '/'⟩ :: ⟨'/', p⟩ :: text.reverse)
    ((p.after '/').after '*') after
  have passes : Passes flavor ⟨.plain, parens, text.reverse.reverse⟩
      (⟨'/', p⟩ :: ⟨'*', p.after '/'⟩ :: Cell.ofChars _ _) [] _ _ :=
    passes_slash_star begun' ⟨rfl, rfl⟩ read
  rw [List.reverse_reverse] at passes
  rw [whole, Cell.ofChars_cons, Cell.ofChars_cons, passes.scan_eq]
  simp [comment]

/-! ## Texts that differ in what a comment says -/

section Spliced

variable {pre : List Cell} {p : Position} {body body' : List Char}

/-- Whether two texts are the same, or go on after `pre` with a comment and are the same up to what that
says. -/
def Spliced (pre : List Cell) (p : Position) (body body' : List Char) (text text' : List Cell) : Prop :=
  text = text' ∨ ∃ post, text = pre ++ (Cell.ofChars p (comment body) ++ post) ∧
    text' = pre ++ (Cell.ofChars p (comment body') ++ post)

theorem steady_spliced : Steady (Spliced pre p body body') where
  refl _ := .inl rfl
  concat related c := by
    rcases related with rfl | ⟨post, rfl, rfl⟩
    · exact .inl rfl
    · exact .inr ⟨post ++ [c], by simp, by simp⟩
  nil_iff related := by
    rcases related with rfl | ⟨post, rfl, rfl⟩
    · rfl
    · simp [comment]

theorem ofChars_comment (p : Position) (body : List Char) : ∃ cells q,
    Cell.ofChars p (comment body) = ⟨'/', p⟩ :: (cells ++ [⟨'/', q⟩]) := by
  refine ⟨Cell.ofChars (p.after '/') ('*' :: (body ++ ['*'])),
    (p.after '/').advance ('*' :: (body ++ ['*'])), ?_⟩
  rw [show comment body = '/' :: ('*' :: (body ++ ['*']) ++ ['/']) by simp [comment],
    Cell.ofChars_cons, ofChars_append, Cell.ofChars_cons _ '/', Cell.ofChars_nil]

theorem exists_head_comment (before after : List Cell) (p : Position) :
    ∃ head : Cell, ∀ body, ∃ more, before ++ (Cell.ofChars p (comment body) ++ after) = head :: more := by
  cases before with
  | nil =>
    refine ⟨⟨'/', p⟩, fun body => ?_⟩
    obtain ⟨cells, q, slashes⟩ := ofChars_comment p body
    exact ⟨_, by rw [slashes]; rfl⟩
  | cons c cells => exact ⟨c, fun body => ⟨_, rfl⟩⟩

theorem trimWhile_comment (before after : List Cell) (p : Position) (body : List Char) :
    Text.trimWhile Cell.isBlank (before ++ (Cell.ofChars p (comment body) ++ after)) =
      before.dropWhile Cell.isBlank ++
        (Cell.ofChars p (comment body) ++ Text.dropEndWhile Cell.isBlank after) := by
  obtain ⟨cells, q, split⟩ := ofChars_comment p body
  have visible (p : Position) : Cell.isBlank ⟨'/', p⟩ = false := rfl
  rw [split, List.cons_append, Text.trimWhile_append_cons (visible p), List.append_assoc,
    List.singleton_append, Text.dropEndWhile_append_cons (visible q)]
  simp

theorem splitImportant_comment (before after body : List Char) :
    splitImportant (before ++ (comment body ++ after)) =
      (before ++ (comment body ++ (splitImportant after).1), (splitImportant after).2) := by
  have cut (after : List Char) : before ++ (comment body ++ after) =
      (before ++ '/' :: '*' :: (body ++ ['*'])) ++ '/' :: after := by simp [comment]
  rw [cut, cut, splitImportant_append_cons _ rfl (by decide)]

/-! ## Declarations -/

def Assigns (flavor : Flavor) (text : List Cell) : Prop :=
  ∃ d, nodeOf flavor (Text.trimWhile Cell.isBlank text) = .ok (some (.declaration d))

theorem dropWhile_append_of_ne_nil {f : Cell → Bool} {cells : List Cell}
    (nonempty : cells.dropWhile f ≠ []) (more : List Cell) :
    (cells ++ more).dropWhile f = cells.dropWhile f ++ more := by
  rw [List.dropWhile_append, if_neg (by simpa using nonempty)]

theorem colonFollows_append {cells : List Cell} (h : colonFollows cells = true) (more : List Cell) :
    colonFollows (cells ++ more) = true := by
  unfold colonFollows at *
  cases dropped : cells.dropWhile Cell.isBlank with
  | nil => simp [dropped, startsWith] at h
  | cons c rest =>
    rw [dropWhile_append_of_ne_nil (by simp [dropped]), dropped]
    rwa [dropped] at h

theorem colonFollows_dropWhile_append {f : Cell → Bool} {cells : List Cell}
    (h : colonFollows (cells.dropWhile f) = true) (more : List Cell) :
    colonFollows ((cells ++ more).dropWhile f) = true := by
  have nonempty : cells.dropWhile f ≠ [] := by
    intro empty
    rw [empty] at h
    cases h
  rw [dropWhile_append_of_ne_nil nonempty]
  exact colonFollows_append h more

theorem isVariableText_append {rest : List Cell} (h : isVariableText rest = true)
    (more : List Cell) : isVariableText (rest ++ more) = true := by
  unfold isVariableText at *
  cases rest with
  | nil => cases h
  | cons c rest =>
    have same : startsWith '{' (c :: rest ++ more) = startsWith '{' (c :: rest) := rfl
    rw [same]
    split
    next brace =>
      rw [if_pos brace] at h
      cases dropped : (c :: rest).dropWhile (·.char != '}') with
      | nil => simp [dropped] at h
      | cons close after =>
        rw [dropWhile_append_of_ne_nil (by simp [dropped]), dropped]
        rw [dropped] at h
        exact colonFollows_dropWhile_append h more
    next plain =>
      rw [if_neg plain, Bool.and_eq_true_iff] at h
      rw [Bool.and_eq_true_iff]
      refine ⟨?_, colonFollows_dropWhile_append h.2 more⟩
      rw [List.cons_append, List.takeWhile_cons]
      split
      · rfl
      next other =>
        rw [List.takeWhile_cons_of_neg other] at h
        cases h.1

theorem nodeOf_append {first : Cell} {rest : List Cell} {d : Declaration}
    (node : nodeOf flavor (first :: rest) = .ok (some (.declaration d))) (more : List Cell) :
    nodeOf flavor (first :: (rest ++ more)) =
      .ok (some (.declaration (declarationOf first (rest ++ more)))) := by
  rw [nodeOf] at node ⊢
  split_ifs at node with at' variable' colon mixin
  · have longer : flavor.mixins = true ∧ isVariableText (rest ++ more) = true := by
      rw [Bool.and_eq_true_iff] at variable'
      exact ⟨variable'.1, isVariableText_append variable'.2 more⟩
    rw [if_pos at', if_pos (by simp [longer])]
  · cases node
  · have longer : (first :: (rest ++ more)).any (·.char == ':') = true := by
      rw [← List.cons_append, List.any_append, colon, Bool.true_or]
    rw [if_neg at', if_pos longer]
  · cases node

theorem Assigns.colon {text : List Cell} (h : Assigns flavor text) : ∃ c ∈ text, c.char = ':' := by
  obtain ⟨d, node⟩ := h
  rw [← exists_colon_trimWhile]
  cases trimmed : Text.trimWhile Cell.isBlank text with
  | nil =>
    rw [trimmed] at node
    cases node
  | cons first rest =>
    rw [trimmed] at node
    rcases nodeOf_cases node with ⟨prelude, same⟩ | ⟨-, colon⟩
    · cases same
    · exact colon

theorem Assigns.ne_nil {text : List Cell} (h : Assigns flavor text) : text ≠ [] := by
  obtain ⟨c, mem, -⟩ := h.colon
  exact List.ne_nil_of_mem mem

theorem Assigns.extend {first : Cell} {rest : List Cell} (h : Assigns flavor (first :: rest))
    (visible : first.isBlank = false) (more : List Cell) :
    nodeOf flavor (first :: (rest ++ more)) =
      .ok (some (.declaration (declarationOf first (rest ++ more)))) := by
  obtain ⟨d, node⟩ := h
  obtain ⟨kept, trimmed⟩ := List.head?_eq_some_iff.1 (Text.head?_trimWhile visible rest)
  obtain ⟨blanks, split⟩ : first :: kept <+: first :: rest := by
    rw [← trimmed, Text.trimWhile_cons visible]
    exact Text.dropEndWhile_isPrefix _
  rw [trimmed] at node
  rw [List.cons_append, List.cons.injEq] at split
  rw [← split.2, List.append_assoc]
  exact nodeOf_append node (blanks ++ more)

theorem reworded_declarationOf {first : Cell} {rest post : List Cell}
    (chain : (first :: (rest ++ (Cell.ofChars p (comment body) ++ post))).IsChain Follows)
    (assigns : ∃ c ∈ first :: rest, c.char = ':') :
    (declarationOf first (rest ++ (Cell.ofChars p (comment body) ++ post))).Reworded p body body'
      (declarationOf first (rest ++ (Cell.ofChars p (comment body') ++ post))) := by
  obtain ⟨before, colon, after, split, char, taken, -⟩ := exists_split_colon assigns
  have plain : ∀ c ∈ before, c.char ≠ ':' := by
    intro c mem
    rw [← taken] at mem
    simpa using List.mem_takeWhile_imp mem
  have longer (body : List Char) : first :: (rest ++ (Cell.ofChars p (comment body) ++ post)) =
      before ++ colon :: (after ++ (Cell.ofChars p (comment body) ++ post)) := by
    rw [← List.cons_append, split, List.append_assoc, List.cons_append]
  have cut (body : List Char) := declarationOf_eq (longer body) char plain
  simp only [trimWhile_comment] at cut
  obtain ⟨head, starts⟩ := exists_head_comment (after.dropWhile Cell.isBlank)
    (Text.dropEndWhile Cell.isBlank post) p
  have begins (body : List Char) :
      (declarationOf first (rest ++ (Cell.ofChars p (comment body) ++ post))).valueStart = head.pos := by
    obtain ⟨more, starts⟩ := starts body
    exact valueStart_eq ((cut body).2.trans starts)
  have value (body : List Char) :
      (declarationOf first (rest ++ (Cell.ofChars p (comment body) ++ post))).value.toList =
        Cell.chars (after.dropWhile Cell.isBlank) ++ comment body ++
          (splitImportant (Cell.chars (Text.dropEndWhile Cell.isBlank post))).1 := by
    have whole : (declarationOf first (rest ++ (Cell.ofChars p (comment body) ++ post))).value.toList =
        (splitImportant (Cell.chars (valueCells
          (first :: (rest ++ (Cell.ofChars p (comment body) ++ post)))))).1 :=
      String.toList_ofList
    rw [whole, (cut body).2, chars_append, chars_append, Cell.chars_ofChars, splitImportant_comment,
      List.append_assoc]
  refine ⟨(cut body').1.trans (cut body).1.symm, (begins body').trans (begins body).symm,
    _, _, ?_, value body, value body'⟩
  obtain ⟨more, whole⟩ := starts body
  obtain ⟨cells, q, slashes⟩ := ofChars_comment p body
  have chain' : (head :: more).IsChain Follows := by
    rw [← whole, ← (cut body).2]
    exact isChain_valueCells chain List.prefix_rfl
  have here : head :: more = after.dropWhile Cell.isBlank ++ ⟨'/', p⟩ ::
      (cells ++ [⟨'/', q⟩] ++ Text.dropEndWhile Cell.isBlank post) := by
    rw [← whole, slashes, List.cons_append]
  rw [begins]
  exact (advance_of_follows chain' here rfl fun _ => rfl).2 (by simp)

/-! ## Pieces and findings -/

def Piece.declared (flavor : Flavor) (piece : Piece) : List Declaration :=
  (piece.begins flavor).filterMap Node.declaration?

theorem declared_statement {text : List Cell} {d : Declaration}
    (node : nodeOf flavor text = .ok (some (.declaration d))) :
    (Piece.statement text).declared flavor = [d] := by
  simp only [Piece.declared, Piece.begins, node]
  rfl

theorem declared_spliced {post : List Cell} (assigns : Assigns flavor pre)
    (chain : (pre ++ (Cell.ofChars p (comment body) ++ post)).IsChain Follows)
    (begun : Begun (pre ++ (Cell.ofChars p (comment body) ++ post))) :
    ∃ d d' : Declaration, d.Reworded p body body' d' ∧
      (Piece.statement (Text.trimWhile Cell.isBlank
        (pre ++ (Cell.ofChars p (comment body) ++ post)))).declared flavor = [d] ∧
      (Piece.statement (Text.trimWhile Cell.isBlank
        (pre ++ (Cell.ofChars p (comment body') ++ post)))).declared flavor = [d'] := by
  cases pre with
  | nil => exact absurd rfl assigns.ne_nil
  | cons first rest =>
    obtain ⟨_, _, same, visible⟩ := begun
    cases same
    have trimmed (body : List Char) : Text.trimWhile Cell.isBlank
        (first :: rest ++ (Cell.ofChars p (comment body) ++ post)) =
          first :: (rest ++ (Cell.ofChars p (comment body) ++
            Text.dropEndWhile Cell.isBlank post)) := by
      rw [trimWhile_comment, List.dropWhile_cons_of_neg (by simp [visible]), List.cons_append]
    have chain' : (first :: (rest ++ (Cell.ofChars p (comment body) ++
        Text.dropEndWhile Cell.isBlank post))).IsChain Follows := by
      obtain ⟨blanks, split⟩ := Text.dropEndWhile_isPrefix (p := Cell.isBlank) post
      have longer : (first :: (rest ++ (Cell.ofChars p (comment body) ++
          Text.dropEndWhile Cell.isBlank post)) ++ blanks).IsChain Follows := by
        rw [← split] at chain
        simpa using chain
      exact longer.left_of_append
    refine ⟨_, _, reworded_declarationOf chain' assigns.colon, ?_, ?_⟩
    · rw [trimmed]
      exact declared_statement (assigns.extend visible _)
    · rw [trimmed]
      exact declared_statement (assigns.extend visible _)

def Similar (p : Position) (body body' : List Char) (d d' : Declaration) : Prop :=
  d' = d ∨ d.Reworded p body body' d'

theorem declared_similar {source : List Cell} {i j : Item} {q r : Piece} (assigns : Assigns flavor pre)
    (within : i.In source) (related : i.Related (Spliced pre p body body') j) (reads : i.Reads q)
    (reads' : j.Reads r) :
    List.Forall₂ (Similar p body body') (q.declared flavor) (r.declared flavor) := by
  cases related with
  | comment slash inline =>
    obtain ⟨c, rfl, -⟩ := reads.eq_comment
    obtain ⟨c', rfl, -⟩ := reads'.eq_comment
    exact .nil
  | statement spliced ending =>
    obtain ⟨begun, rfl⟩ := reads.eq_statement
    obtain ⟨-, rfl⟩ := reads'.eq_statement
    rcases spliced with rfl | ⟨post, rfl, rfl⟩
    · exact List.forall₂_same.2 fun d _ => .inl rfl
    · obtain ⟨d, d', reworded, declared, declared'⟩ := declared_spliced assigns within.1 begun
      rw [declared, declared']
      exact .cons (.inr reworded) .nil
  | opening spliced brace =>
    rw [reads.eq_opening.2, reads'.eq_opening.2]
    exact .nil
  | closing brace =>
    rw [reads.eq_closing, reads'.eq_closing]
    exact .nil

theorem declared_all_similar {source : List Cell} {is js : List Item} {ps qs : List Piece}
    (assigns : Assigns flavor pre) (within : ∀ i ∈ is, i.In source)
    (related : List.Forall₂ (Item.Related (Spliced pre p body body')) is js)
    (reads : List.Forall₂ Item.Reads is ps) (reads' : List.Forall₂ Item.Reads js qs) :
    List.Forall₂ (Similar p body body') (ps.flatMap (Piece.declared flavor))
      (qs.flatMap (Piece.declared flavor)) := by
  induction related generalizing ps qs with
  | nil =>
    cases reads
    cases reads'
    exact .nil
  | cons here _ ih =>
    cases reads with
    | cons read reads =>
      cases reads' with
      | cons read' reads' =>
        have first := declared_similar assigns (within _ List.mem_cons_self) here read read'
        exact List.rel_append first (ih (fun i mem => within i (.tail _ mem)) reads reads')

theorem nested_related {r : List Cell → List Cell → Prop} {is js : List Item}
    (related : List.Forall₂ (Item.Related r) is js) {limit depth : Nat} (nested : Nested limit depth is) :
    Nested limit depth js := by
  induction related generalizing depth with
  | nil => exact nested
  | cons here _ ih =>
    cases here with
    | comment | statement => exact ih nested
    | opening | closing => exact ⟨nested.1, ih nested.2⟩

theorem accepted_spliced {is js : List Item} {limit : Nat} (colon : ∃ c ∈ pre, c.char = ':')
    (related : List.Forall₂ (Item.Related (Spliced pre p body body')) is js)
    (accepted : Accepted flavor limit is) : Accepted flavor limit js := by
  rw [accepted_iff] at accepted ⊢
  refine ⟨nested_related related accepted.1, ?_⟩
  intro text' ending mem
  obtain ⟨i, mem', here⟩ := exists_of_forall₂ related mem
  cases here with
  | @statement text _ spliced =>
    rcases spliced with rfl | ⟨post, -, rfl⟩
    · exact accepted.2 text ending mem'
    · obtain ⟨c, mem, char⟩ := colon
      exact .inr (.inl ⟨c, List.mem_append_left _ mem, char⟩)

theorem filter_findings_similar {ds ds' : List Declaration}
    (similar : List.Forall₂ (Similar p body body') ds ds') (quiet : Quiet body) (quiet' : Quiet body')
    (length : body'.length = body.length) :
    ∀ findings ∈ [Rule.malformedColors, Rule.zeroLengths],
      (ds'.flatMap findings).filter (Finding.outside p (body.length + 4)) =
        (ds.flatMap findings).filter (Finding.outside p (body.length + 4)) := by
  intro findings mem
  induction similar with
  | nil => rfl
  | cons here _ ih =>
    rw [List.flatMap_cons, List.flatMap_cons, List.filter_append, List.filter_append, ih]
    rcases here with rfl | reworded
    · rfl
    · rw [Rule.filter_findings_reworded reworded quiet quiet' length findings mem]

end Spliced

/-! ## A whole text -/

theorem items_value_comment {before body after : List Char} {is : List Item} {parens : Nat}
    {text : List Cell} (stands : run flavor .start (some '/') (Cell.ofChars .start before) =
      some (is, ⟨.plain, parens, text⟩)) (begun : text ≠ []) (unclosed : ¬['*', '/'] <:+: body) :
    Scan.items flavor (before ++ (comment body ++ after)) =
      (scan flavor ⟨.plain, parens, text ++ Cell.ofChars (Position.start.advance before) (comment body)⟩
        (Cell.ofChars ((Position.start.advance before).advance (comment body)) after)).map
          (is ++ ·) := by
  rw [Scan.items, ofChars_append, ← scan_value_comment begun _ unclosed]
  apply scan_of_run
  rw [show comment body ++ after = '/' :: ('*' :: (body ++ ['*', '/']) ++ after) from rfl,
    Cell.ofChars_cons]
  exact stands

theorem items_spliced {before body body' : List Char} (after : List Char) {is : List Item} {parens : Nat}
    {text : List Cell} (stands : run flavor .start (some '/') (Cell.ofChars .start before) =
      some (is, ⟨.plain, parens, text⟩)) (begun : text ≠ []) (quiet : Quiet body) (quiet' : Quiet body')
    (length : body'.length = body.length) :
    Option.Rel (List.Forall₂ (Item.Related
        (Spliced text (Position.start.advance before) body body')))
      (Scan.items flavor (before ++ (comment body ++ after)))
      (Scan.items flavor (before ++ (comment body' ++ after))) := by
  have plain {body : List Char} (inline : '\n' ∉ body) : '\n' ∉ comment body := by
    simp [comment, inline]
  have same : (Position.start.advance before).advance (comment body') =
      (Position.start.advance before).advance (comment body) := by
    rw [Position.advance_of_not_mem (plain quiet.inline),
      Position.advance_of_not_mem (plain quiet'.inline), Rule.length_comment, Rule.length_comment,
      length]
  rw [items_value_comment stands begun quiet.unclosed,
    items_value_comment stands begun quiet'.unclosed, same]
  have states : State.Related (Spliced text (Position.start.advance before) body body')
      ⟨.plain, parens, text ++ Cell.ofChars (Position.start.advance before) (comment body)⟩
      ⟨.plain, parens, text ++ Cell.ofChars (Position.start.advance before) (comment body')⟩ :=
    ⟨rfl, rfl, .inr ⟨[], by simp, by simp⟩⟩
  apply related_after steady_spliced
  exact scan_related steady_spliced states _

theorem declarations_of_reads {sheet : Sheet} {ps : List Piece}
    (walk : sheet.walk.map Node.bare = ps.flatMap (Piece.begins flavor)) :
    sheet.declarations = ps.flatMap (Piece.declared flavor) := by
  rw [Sheet.declarations_eq, walk, List.filterMap_flatMap]
  rfl

/-- A comment in the value of a declaration, outside of strings. With another body of the same length the
text is still accepted, and the rules about values find the same outside of the comment, if neither body
has quotes, parentheses or newlines. -/
theorem parse_value_comment {d : Dialect} (h : d.flavor? = some flavor)
    {before body body' after : String} {is : List Item} {parens : Nat} {text : List Cell}
    (stands : run flavor .start (some '/')
      (Cell.ofChars .start (Text.dropByteOrderMark before.toList)) = some (is, ⟨.plain, parens, text⟩))
    (assigns : Assigns flavor text) (quiet : Quiet body.toList) (quiet' : Quiet body'.toList)
    (length : body'.toList.length = body.toList.length) {sheet : Sheet}
    (parsed : d.parse (before ++ "/*" ++ body ++ "*/" ++ after) = .ok sheet) :
    ∃ sheet', d.parse (before ++ "/*" ++ body' ++ "*/" ++ after) = .ok sheet' ∧
      ∀ rule ∈ [Rule.colorNoInvalidHex, Rule.lengthZeroNoUnit], ∀ context,
        (rule.check context sheet').findings.filter (Finding.outside
            (Position.start.advance (Text.dropByteOrderMark before.toList)) (body.toList.length + 4)) =
          (rule.check context sheet).findings.filter (Finding.outside
            (Position.start.advance (Text.dropByteOrderMark before.toList))
            (body.toList.length + 4)) := by
  have source (body : String) : Text.dropByteOrderMark (before ++ "/*" ++ body ++ "*/" ++ after).toList =
      Text.dropByteOrderMark before.toList ++ (comment body.toList ++ after.toList) := by
    have whole : (before ++ "/*" ++ body ++ "*/" ++ after).toList =
        before.toList ++ (comment body.toList ++ after.toList) := by
      simp [String.toList_append, comment]
    rw [whole, Text.dropByteOrderMark_append fun _ => by simp [comment]]
  obtain ⟨js, accepted_items, accepted⟩ := (parse_ok_iff h _).1 ⟨sheet, parsed⟩
  obtain ⟨is', ps, found, reads, walk, -⟩ := reads_of_parse h parsed
  cases accepted_items.symm.trans found
  have related := items_spliced after.toList stands assigns.ne_nil quiet quiet' length
  rw [← source, ← source, found] at related
  cases found' : Scan.items flavor
      (Text.dropByteOrderMark (before ++ "/*" ++ body' ++ "*/" ++ after).toList) with
  | none =>
    rw [found'] at related
    cases related
  | some js =>
    rw [found'] at related
    cases related with
    | some related =>
      -- A statement with the comment declares something, so it is one whatever the comment says.
      have accepted' := accepted_spliced assigns.colon related accepted
      obtain ⟨sheet', parsed'⟩ := (parse_ok_iff h _).2 ⟨js, found', accepted'⟩
      obtain ⟨_, qs, again, reads', walk', -⟩ := reads_of_parse h parsed'
      cases found'.symm.trans again
      have within := scan_in (ofChars_chain _ _) (holds_start [] _) found
      have similar := declared_all_similar assigns within related reads reads'
      rw [← declarations_of_reads walk, ← declarations_of_reads walk'] at similar
      have same := filter_findings_similar similar quiet quiet' length
      simp only [List.forall_mem_cons, List.not_mem_nil, false_implies, implies_true, and_true] at same ⊢
      exact ⟨sheet', parsed', fun context => same.1, fun context => same.2⟩

theorem parse_value_comment_unit :
    Dialect.css.flavor? = some .css ∧
    run .css .start (some '/') (Cell.ofChars .start "a:".toList) =
      some ([], ⟨.plain, 0, Cell.ofChars .start "a:".toList⟩) ∧
    Assigns .css (Cell.ofChars .start "a:".toList) ∧ Quiet " one ".toList ∧ Quiet " 0px ".toList ∧
    Dialect.css.parse ("a:" ++ "/*" ++ " one " ++ "*/" ++ "0px") =
      .ok ⟨[.declaration ⟨"a", "/* one */0px", false, ⟨1, 1⟩, ⟨1, 3⟩⟩]⟩ ∧
    ∃ sheet', Dialect.css.parse ("a:" ++ "/*" ++ " 0px " ++ "*/" ++ "0px") = .ok sheet' ∧
      ∀ rule ∈ [Rule.colorNoInvalidHex, Rule.lengthZeroNoUnit], ∀ context,
        (rule.check context sheet').findings.filter (Finding.outside ⟨1, 3⟩ 9) =
          (rule.check context
            ⟨[.declaration ⟨"a", "/* one */0px", false, ⟨1, 1⟩, ⟨1, 3⟩⟩]⟩).findings.filter
              (Finding.outside ⟨1, 3⟩ 9) := by
  have assigns : Assigns .css (Cell.ofChars .start "a:".toList) := ⟨_, rfl⟩
  have quiet : Quiet " one ".toList := ⟨by decide, by decide, by simp [Unmarked]⟩
  have quiet' : Quiet " 0px ".toList := ⟨by decide, by decide, by simp [Unmarked]⟩
  have read : readStatement .css 0 [] (Cell.ofChars .start "a:/* one */0px".toList) =
      .ok ((Cell.ofChars .start "a:/* one */0px".toList).reverse, []) := by
    simp [readStatement_cons, readStatement_nil, readComment, Flavor.css, startsWith]
  have parsed : Dialect.css.parse ("a:" ++ "/*" ++ " one " ++ "*/" ++ "0px") =
      .ok ⟨[.declaration ⟨"a", "/* one */0px", false, ⟨1, 1⟩, ⟨1, 3⟩⟩]⟩ :=
    parse_of_statement rfl rfl (by decide) read rfl
  exact ⟨rfl, rfl, assigns, quiet, quiet', parsed,
    parse_value_comment rfl rfl assigns quiet quiet' rfl parsed⟩

theorem findings_of_comments :
    ∃ plain quoted inner : Declaration,
      Dialect.css.parse "a:/*x*/0px" = .ok ⟨[.declaration plain]⟩ ∧
      Dialect.css.parse "a:/*'*/0px" = .ok ⟨[.declaration quoted]⟩ ∧
      Dialect.css.parse "a:/* 0px */" = .ok ⟨[.declaration inner]⟩ ∧
      Rule.zeroLengths plain = [⟨⟨1, 9⟩, "Unexpected unit"⟩] ∧ Rule.zeroLengths quoted = [] ∧
      Rule.zeroLengths inner = [⟨⟨1, 7⟩, "Unexpected unit"⟩] := by
  have plain : readStatement .css 0 [] (Cell.ofChars .start "a:/*x*/0px".toList) =
      .ok ((Cell.ofChars .start "a:/*x*/0px".toList).reverse, []) := by
    simp [readStatement_cons, readStatement_nil, readComment, Flavor.css, startsWith]
  have quoted : readStatement .css 0 [] (Cell.ofChars .start "a:/*'*/0px".toList) =
      .ok ((Cell.ofChars .start "a:/*'*/0px".toList).reverse, []) := by
    simp [readStatement_cons, readStatement_nil, readComment, Flavor.css, startsWith]
  have inner : readStatement .css 0 [] (Cell.ofChars .start "a:/* 0px */".toList) =
      .ok ((Cell.ofChars .start "a:/* 0px */".toList).reverse, []) := by
    simp [readStatement_cons, readStatement_nil, readComment, Flavor.css, startsWith]
  exact ⟨⟨"a", "/*x*/0px", false, ⟨1, 1⟩, ⟨1, 3⟩⟩, ⟨"a", "/*'*/0px", false, ⟨1, 1⟩, ⟨1, 3⟩⟩,
    ⟨"a", "/* 0px */", false, ⟨1, 1⟩, ⟨1, 3⟩⟩, parse_of_statement rfl rfl (by decide) plain rfl,
    parse_of_statement rfl rfl (by decide) quoted rfl, parse_of_statement rfl rfl (by decide) inner rfl,
    by decide +kernel, by decide +kernel, by decide +kernel⟩

end Brace

end SheetLint
