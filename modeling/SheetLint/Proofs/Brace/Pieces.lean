import SheetLint.Brace.Outline
import SheetLint.Proofs.Except
import SheetLint.Proofs.Tree

namespace SheetLint.Brace

def pieces (flavor : Flavor) (cells : List Cell) : Except ParseError (List Piece) :=
  match _h : Piece.next flavor cells with
  | .error e => .error e
  | .ok none => .ok []
  | .ok (some (piece, rest)) => (pieces flavor rest).map (piece :: ·)
termination_by cells.length
decreasing_by exact Piece.length_next_lt (by assumption)

section Step

variable {flavor : Flavor} {cells rest : List Cell} {piece : Piece} {e : ParseError}

theorem pieces_of_error (next : Piece.next flavor cells = .error e) :
    pieces flavor cells = .error e := by
  rw [pieces]
  split <;> simp_all

theorem pieces_of_none (next : Piece.next flavor cells = .ok none) :
    pieces flavor cells = .ok [] := by
  rw [pieces]
  split <;> simp_all

theorem pieces_of_some (next : Piece.next flavor cells = .ok (some (piece, rest))) :
    pieces flavor cells = (pieces flavor rest).map (piece :: ·) := by
  rw [pieces]
  split <;> simp_all

end Step

theorem next_of_head {flavor : Flavor} {p : Position} {text : List Char} {c : Char}
    (head : text.head? = some c) (visible : Text.isBlank c = false) (plain : c ∉ [';', '{', '}', '/']) :
    Piece.next flavor (Cell.ofChars p text) =
      ((readStatement flavor 0 [] (Cell.ofChars p text)).map fun r =>
        Piece.ofStatement r.1 r.2).map some := by
  obtain ⟨rest, rfl⟩ := List.head?_eq_some_iff.1 head
  simp only [List.mem_cons, List.not_mem_nil, or_false, not_or] at plain
  obtain ⟨semicolon, opening, closing, slash⟩ := plain
  have gap : Piece.isGap ⟨c, p⟩ = false := by simp [Piece.isGap, Cell.isBlank, visible, semicolon]
  rw [Cell.ofChars_cons, Piece.next, List.dropWhile_cons_of_neg (by simp [gap])]
  simp [Piece.ofCell, opening, closing, slash]

def Piece.begins (flavor : Flavor) : Piece → List Node
  | .comment c => [.comment c]
  | .statement text =>
    match nodeOf flavor text with
    | .ok (some n) => [n]
    | _ => []
  | .opening text brace =>
    [.block (preludeOf text) ((text.head?.map Cell.pos).getD brace) brace []]
  | .closing _ => []

def Piece.write {α : Type} (w : Writer α) (flavor : Flavor) : Piece → List α
  | .comment c => w.leaf (.comment c)
  | .statement text =>
    match nodeOf flavor text with
    | .ok (some n) => w.leaf n
    | _ => []
  | .opening text brace =>
    w.opening (preludeOf text) ((text.head?.map Cell.pos).getD brace) brace
  | .closing _ => w.closing

theorem Piece.write_preorder (flavor : Flavor) :
    Piece.write .preorder flavor = Piece.begins flavor := by
  funext piece
  cases piece <;> rfl

theorem node_nodeOf {α : Type} (w : Writer α) {flavor : Flavor} {text : List Cell} {n : Node}
    (h : nodeOf flavor text = .ok (some n)) : w.node n = w.leaf n := by
  unfold nodeOf at h
  repeat' split at h
  all_goals cases h
  all_goals rfl

namespace Outline

variable {flavor : Flavor} {limit : Option Nat}

def addAll (flavor : Flavor) (limit : Option Nat) (o : Outline) :
    List Piece → Except ParseError Outline
  | [] => .ok o
  | piece :: more =>
    match o.add flavor limit piece with
    | .error e => .error e
    | .ok o => addAll flavor limit o more

theorem addAll_cons_eq_ok_iff {o o' : Outline} {piece : Piece} {more : List Piece} :
    o.addAll flavor limit (piece :: more) = .ok o' ↔
      ∃ mid, o.add flavor limit piece = .ok mid ∧ mid.addAll flavor limit more = .ok o' := by
  rw [addAll]
  cases o.add flavor limit piece <;> simp

theorem readAll_eq (o : Outline) (cells : List Cell) :
    o.readAll flavor limit cells = (Piece.next flavor cells).bind fun next =>
      next.elim o.finish fun p => (o.add flavor limit p.1).bind fun o =>
        o.readAll flavor limit p.2 := by
  rw [readAll]
  split
  next failed => rw [failed]; rfl
  next ended => rw [ended]; rfl
  next piece rest next =>
    rw [next]
    split
    next failed => simp [Except.bind, failed]
    next added => simp [Except.bind, added]

theorem readAll_eq_ok_iff (o : Outline) (cells : List Cell) (nodes : List Node) :
    o.readAll flavor limit cells = .ok nodes ↔
      ∃ ps o', pieces flavor cells = .ok ps ∧ o.addAll flavor limit ps = .ok o' ∧
        o'.finish = .ok nodes := by
  fun_induction readAll flavor limit o cells with
  | case1 o cells e next => simp [pieces_of_error next]
  | case2 o cells next => simp [pieces_of_none next, addAll]
  | case3 o cells piece rest next e failed =>
    simp [pieces_of_some next, map_eq_ok_iff, addAll_cons_eq_ok_iff, failed]
  | case4 o cells piece rest next mid added ih =>
    rw [ih, pieces_of_some next]
    constructor
    · rintro ⟨ps, o', read, built, closed⟩
      exact ⟨piece :: ps, o', map_eq_ok_iff.2 ⟨ps, read, rfl⟩,
        addAll_cons_eq_ok_iff.2 ⟨mid, added, built⟩, closed⟩
    · rintro ⟨_, o', mapped, built, closed⟩
      obtain ⟨ps, read, rfl⟩ := map_eq_ok_iff.1 mapped
      obtain ⟨mid', added', built⟩ := addAll_cons_eq_ok_iff.1 built
      cases added.symm.trans added'
      exact ⟨ps, o', read, built, closed⟩

/-! ## Writing an outline -/

section Written

variable {α : Type} (w : Writer α)

def writtenBefore : List OpenBlock → List α
  | [] => []
  | b :: blocks =>
    writtenBefore blocks ++ w.all b.before.reverse ++ w.opening b.prelude b.start b.opener

def written (o : Outline) : List α :=
  writtenBefore w o.blocks ++ w.all o.nodes.reverse

theorem written_cons (n : Node) (nodes : List Node) (blocks : List OpenBlock) :
    written w ⟨n :: nodes, blocks⟩ = written w ⟨nodes, blocks⟩ ++ w.node n := by
  simp [written, w.all_append, w.all_singleton]

theorem written_add {o o' : Outline} {piece : Piece} (h : o.add flavor limit piece = .ok o') :
    o'.written w = o.written w ++ piece.write w flavor := by
  cases piece with
  | comment c =>
    cases h
    rw [written_cons]
    rfl
  | statement text =>
    cases node : nodeOf flavor text with
    | error e => simp [add, node] at h
    | ok n =>
      cases n with
      | none =>
        simp only [add, node, Except.ok.injEq] at h
        simp [← h, Piece.write, node]
      | some n =>
        simp only [add, node, Except.ok.injEq] at h
        simp [← h, written_cons, Piece.write, node, node_nodeOf w node]
  | opening text brace =>
    simp only [add] at h
    split at h
    · cases h
    · cases h
      simp [written, writtenBefore, Writer.all, Piece.write]
  | closing brace =>
    simp only [add] at h
    split at h
    · cases h
    next b blocks open' =>
      cases h
      rw [written_cons]
      simp [written, writtenBefore, open', Writer.node, Piece.write]

theorem written_addAll {o o' : Outline} {ps : List Piece}
    (h : o.addAll flavor limit ps = .ok o') :
    o'.written w = o.written w ++ ps.flatMap (Piece.write w flavor) := by
  induction ps generalizing o with
  | nil =>
    cases h
    simp
  | cons piece ps ih =>
    obtain ⟨mid, added, built⟩ := addAll_cons_eq_ok_iff.1 h
    rw [ih built, written_add w added, List.flatMap_cons, List.append_assoc]

theorem written_finish {o : Outline} {nodes : List Node} (h : o.finish = .ok nodes) :
    w.all nodes = o.written w := by
  unfold finish at h
  split at h
  next closed =>
    cases h
    simp [written, writtenBefore, closed]
  · cases h

end Written

theorem known_of_addAll {o o' : Outline} {ps : List Piece}
    (h : o.addAll flavor limit ps = .ok o') :
    ∀ text, .statement text ∈ ps → ∃ n, nodeOf flavor text = .ok n := by
  induction ps generalizing o with
  | nil => nofun
  | cons piece ps ih =>
    obtain ⟨mid, added, built⟩ := addAll_cons_eq_ok_iff.1 h
    intro text mem
    rcases List.mem_cons.1 mem with rfl | mem
    · cases node : nodeOf flavor text with
      | error e => simp [add, node] at added
      | ok n => exact ⟨n, rfl⟩
    · exact ih built text mem

end Outline

theorem write_parseWithin {flavor : Flavor} {limit : Option Nat} {text : List Char} {sheet : Sheet}
    (h : parseWithin flavor limit text = .ok sheet) :
    ∃ ps, pieces flavor (Cell.ofChars .start (Text.dropByteOrderMark text)) = .ok ps ∧
      (∀ text, .statement text ∈ ps → ∃ n, nodeOf flavor text = .ok n) ∧
      ∀ {α : Type} (w : Writer α), w.all sheet.nodes = ps.flatMap (Piece.write w flavor) := by
  obtain ⟨nodes, read, rfl⟩ := map_eq_ok_iff.1 h
  obtain ⟨ps, o', pieced, built, closed⟩ := (Outline.readAll_eq_ok_iff _ _ _).1 read
  refine ⟨ps, pieced, Outline.known_of_addAll built, ?_⟩
  intro α w
  rw [Outline.written_finish w closed, Outline.written_addAll w built]
  rfl

theorem walk_parseWithin {flavor : Flavor} {limit : Option Nat} {text : List Char} {sheet : Sheet}
    (h : parseWithin flavor limit text = .ok sheet) :
    ∃ ps, pieces flavor (Cell.ofChars .start (Text.dropByteOrderMark text)) = .ok ps ∧
      sheet.walk.map Node.bare = ps.flatMap (Piece.begins flavor) := by
  obtain ⟨ps, pieced, -, written⟩ := write_parseWithin h
  refine ⟨ps, pieced, ?_⟩
  rw [Sheet.walk, ← Writer.all_preorder, written, Piece.write_preorder]

theorem parse_of_statement {flavor : Flavor} {text : List Char} {c : Char} {buffer : List Cell}
    {n : Node} (head : (Text.dropByteOrderMark text).head? = some c) (visible : Text.isBlank c = false)
    (plain : c ∉ [';', '{', '}', '/'])
    (read : readStatement flavor 0 [] (Cell.ofChars .start (Text.dropByteOrderMark text)) =
      .ok (buffer, []))
    (node : nodeOf flavor (Piece.collected buffer) = .ok (some n)) :
    parse flavor text = .ok ⟨[n]⟩ := by
  have added : Outline.empty.add flavor (some Sheet.maxNesting) (.statement (Piece.collected buffer)) =
      .ok ⟨[n], []⟩ := by
    rw [Outline.add, node]
    rfl
  have ended : (⟨[n], []⟩ : Outline).readAll flavor (some Sheet.maxNesting) [] = .ok [n] := by
    rw [Outline.readAll_eq]
    rfl
  rw [parse, parseWithin, Outline.readAll_eq, next_of_head head visible plain, read]
  simp only [Except.map, Except.bind, Option.elim_some, Piece.ofStatement, added, ended]

end SheetLint.Brace
