import SheetLint.Brace.Outline
import SheetLint.Proofs.Brace.Returns
import SheetLint.Proofs.Except
import SheetLint.Proofs.Relocation

namespace SheetLint.Brace

variable {f : Position → Position}

/-! ## Statements -/

structure Carries (f : Position → Position) (m : Cell → Cell) : Prop where
  char : ∀ c, (m c).char = c.char
  pos : ∀ c, c.isBlank = false → (m c).pos = f c.pos
  column : ∀ p, f ⟨p.line, p.column + 1⟩ = ⟨(f p).line, (f p).column + 1⟩

section Carried

variable {m : Cell → Cell}

theorem any_map {p : Cell → Bool} (same : ∀ c, p (m c) = p c) (text : List Cell) :
    (text.map m).any p = text.any p := by
  simp [List.any_map, Function.comp_def, same]

theorem takeWhile_map {p : Cell → Bool} (same : ∀ c, p (m c) = p c) (text : List Cell) :
    (text.map m).takeWhile p = (text.takeWhile p).map m := by
  simp [List.takeWhile_map, Function.comp_def, same]

theorem dropWhile_map {p : Cell → Bool} (same : ∀ c, p (m c) = p c) (text : List Cell) :
    (text.map m).dropWhile p = (text.dropWhile p).map m := by
  simp [List.dropWhile_map, Function.comp_def, same]

section Characters

variable (char : ∀ c, (m c).char = c.char) (text : List Cell)

include char

theorem chars_map : Cell.chars (text.map m) = Cell.chars text := by
  simp [Cell.chars, Function.comp_def, char]

theorem text_map : Cell.text (text.map m) = Cell.text text := by
  rw [Cell.text, chars_map char, Cell.text]

theorem startsWith_map (c : Char) : startsWith c (text.map m) = startsWith c text := by
  cases text <;> simp [startsWith, char]

theorem blank_map (c : Cell) : (m c).isBlank = c.isBlank := by
  rw [Cell.isBlank, char, Cell.isBlank]

theorem trimWhile_map :
    Text.trimWhile Cell.isBlank (text.map m) = (Text.trimWhile Cell.isBlank text).map m := by
  rw [Text.trimWhile, Text.dropEndWhile, dropWhile_map (blank_map char),
    ← List.map_reverse, dropWhile_map (blank_map char), ← List.map_reverse]
  rfl

theorem atRulePrelude_map : atRulePrelude (text.map m) = atRulePrelude text := by
  have name (c : Cell) : isNameCell (m c) = isNameCell c := by
    simp only [isNameCell, blank_map char, char]
  rw [atRulePrelude, takeWhile_map name, dropWhile_map name, trimWhile_map char,
    text_map char, text_map char, atRulePrelude]

theorem preludeOf_map : preludeOf (text.map m) = preludeOf text := by
  cases text with
  | nil => rfl
  | cons c rest =>
    rw [List.map_cons, preludeOf, preludeOf, char, atRulePrelude_map char,
      ← List.map_cons, text_map char]

theorem colonFollows_map : colonFollows (text.map m) = colonFollows text := by
  rw [colonFollows, dropWhile_map (blank_map char), startsWith_map char,
    colonFollows]

theorem isVariableText_map : isVariableText (text.map m) = isVariableText text := by
  have name (c : Cell) : isVariableCell (m c) = isVariableCell c := by
    simp only [isVariableCell, char]
  have closing (c : Cell) : ((m c).char != '}') = (c.char != '}') := by rw [char]
  rw [isVariableText, isVariableText, startsWith_map char, dropWhile_map (p := (·.char != '}')) closing,
    takeWhile_map name, dropWhile_map name, colonFollows_map char]
  cases text.dropWhile (·.char != '}') with
  | nil => simp
  | cons c rest => simp [dropWhile_map name, colonFollows_map char]

end Characters

variable (carries : Carries f m) (text : List Cell)

include carries

theorem declarationOf_carried {first : Cell} (head : (m first).pos = f first.pos) :
    declarationOf (m first) (text.map m) = (declarationOf first text).relocate f := by
  have colon (c : Cell) : ((m c).char != ':') = (c.char != ':') := by rw [carries.char]
  simp only [declarationOf, Declaration.relocate, ← List.map_cons,
    takeWhile_map (p := (·.char != ':')) colon, dropWhile_map (p := (·.char != ':')) colon,
    ← List.map_drop, trimWhile_map carries.char, text_map carries.char, chars_map carries.char, head]
  have first' := List.head?_dropWhile_not (fun c : Cell => c.char != ':') (first :: text)
  cases cut : (first :: text).dropWhile (·.char != ':') with
  | nil => rfl
  | cons c after =>
    have char : c.char = ':' := by simpa [cut] using first'
    have pos : (m c).pos = f c.pos := carries.pos c (by rw [Cell.isBlank, char]; rfl)
    rw [List.drop_one, List.tail_cons, List.map_cons]
    cases value : Text.trimWhile Cell.isBlank after with
    | nil => simp only [List.map_nil, pos, carries.column c.pos]
    | cons v vs =>
      simp only [List.map_cons, carries.pos v (Text.not_of_trimWhile_eq_cons value)]

theorem nodeOf_carried {flavor : Flavor} (g : Comment → Comment)
    (head : ∀ c ∈ text.head?, (m c).pos = f c.pos) :
    nodeOf flavor (text.map m) =
      ((nodeOf flavor text).map (Option.map (Node.change g f))).mapError (ParseError.relocate f) := by
  cases text with
  | nil => rfl
  | cons c rest =>
    have colon (c : Cell) : ((m c).char == ':') = (c.char == ':') := by rw [carries.char]
    rw [List.map_cons, nodeOf, nodeOf, carries.char, isVariableText_map carries.char, ← List.map_cons,
      any_map (p := (·.char == ':')) colon, atRulePrelude_map carries.char, text_map carries.char,
      head c rfl, declarationOf_carried carries _ (head c rfl)]
    split_ifs <;> rfl

end Carried

/-! ## Readers -/

section Readers

variable (f)

@[simp]
theorem char_relocate (c : Cell) : (c.relocate f).char = c.char := rfl

@[simp]
theorem pos_relocate (c : Cell) : (c.relocate f).pos = f c.pos := rfl

def Reading.relocate (r : Reading) : Reading :=
  (r.1.map (Cell.relocate f), r.2.map (Cell.relocate f))

variable {flavor : Flavor} (buffer cells : List Cell)

theorem readString_relocate (quote : Char) :
    readString quote (buffer.map (Cell.relocate f)) (cells.map (Cell.relocate f)) =
      (readString quote buffer cells).map (Reading.relocate f) := by
  fun_induction readString quote buffer cells with
  | case1 => rfl
  | case2 buffer c rest newline => cases rest <;> simp [readString, newline]
  | case3 buffer c inline backslash => simp [readString, backslash]
  | case4 buffer c inline backslash d rest ih =>
    rw [← ih, List.map_cons, List.map_cons, readString_escape (c := c.relocate f) backslash]
    rfl
  | case5 buffer c rest inline backslash closed =>
    rw [List.map_cons, readString_visible (c := c.relocate f) inline backslash, char_relocate,
      if_pos closed]
    rfl
  | case6 buffer c rest inline backslash open' ih =>
    rw [← ih, List.map_cons, readString_visible (c := c.relocate f) inline backslash, char_relocate,
      if_neg open']
    rfl

theorem readComment_relocate :
    readComment (buffer.map (Cell.relocate f)) (cells.map (Cell.relocate f)) =
      (readComment buffer cells).map (Reading.relocate f) := by
  fun_induction readComment buffer cells with
  | case1 buffer c d rest closed =>
    rw [List.map_cons, List.map_cons, readComment, char_relocate, char_relocate, if_pos closed]
    rfl
  | case2 buffer c d rest open' ih =>
    rw [← ih, List.map_cons, List.map_cons, readComment, char_relocate, char_relocate, if_neg open']
    rfl
  | case3 cells buffer short =>
    rcases cells with _ | ⟨c, _ | ⟨d, rest⟩⟩
    · rfl
    · rfl
    · exact (short c d rest rfl).elim

theorem readInterpolation_relocate (depth : Nat) :
    readInterpolation depth (buffer.map (Cell.relocate f)) (cells.map (Cell.relocate f)) =
      (readInterpolation depth buffer cells).map (Reading.relocate f) := by
  fun_induction readInterpolation depth buffer cells with
  | case1 => rfl
  | case2 depth buffer c rest opened ih => simpa [readInterpolation, opened] using ih
  | case3 buffer c rest opened closed => simp [readInterpolation, closed, Reading.relocate]
  | case4 buffer c rest opened closed depth ih => simpa [readInterpolation, closed] using ih
  | case5 depth buffer c rest opened closed ih =>
    rw [← ih, List.map_cons, readInterpolation_step (c := c.relocate f) opened closed]
    rfl

theorem afterLine_relocate :
    afterLine (cells.map (Cell.relocate f)) = (afterLine cells).map (Cell.relocate f) :=
  dropWhile_map (m := Cell.relocate f) (p := (·.char != '\n')) (fun _ => rfl) cells

theorem readStatement_relocate (parens : Nat) :
    readStatement flavor parens (buffer.map (Cell.relocate f)) (cells.map (Cell.relocate f)) =
      ((readStatement flavor parens buffer cells).map (Reading.relocate f)).mapError
        (ParseError.relocate f) := by
  -- A string or a comment is passed at once, so the induction is on the length of what is left.
  induction size : cells.length using Nat.strongRecOn generalizing cells buffer parens with
  | ind n ih =>
    subst size
    cases cells with
    | nil =>
      rw [List.map_nil, readStatement, readStatement]
      rfl
    | cons c rest =>
      have go (buffer : List Cell) {cells : List Cell} (within : cells <:+ rest) (parens : Nat) :=
        ih cells.length (Nat.lt_succ_of_le within.length_le) buffer cells parens rfl
      rw [List.map_cons, readStatement_cons, readStatement_cons, char_relocate,
        startsWith_map (char_relocate f), startsWith_map (char_relocate f),
        startsWith_map (char_relocate f)]
      split_ifs
      · rw [← List.map_cons, readString_relocate]
        cases read : readString c.char (c :: buffer) rest with
        | none => rfl
        | some r => exact go r.1 (readString_grows read).suffix parens
      · rw [← List.map_take, ← List.map_cons, ← List.map_append, ← List.map_drop, readComment_relocate]
        cases read : readComment (rest.take 1 ++ c :: buffer) (rest.drop 1) with
        | none => rfl
        | some r => exact go r.1 ((readComment_grows read).suffix.trans (List.drop_suffix 1 rest)) parens
      · rw [afterLine_relocate]
        exact go buffer (List.dropWhile_suffix _) parens
      · rw [← List.map_take, ← List.map_cons, ← List.map_append, ← List.map_drop,
          readInterpolation_relocate]
        cases read : readInterpolation 0 (rest.take 1 ++ c :: buffer) (rest.drop 1) with
        | none => rfl
        | some r =>
          exact go r.1 ((readInterpolation_grows read).suffix.trans (List.drop_suffix 1 rest)) parens
      · exact go (c :: buffer) List.suffix_rfl (parens + 1)
      · exact go (c :: buffer) List.suffix_rfl (parens - 1)
      · rfl
      · exact go (c :: buffer) List.suffix_rfl parens

end Readers

/-! ## Pieces -/

def Piece.change (g : Comment → Comment) (f : Position → Position) (m : Cell → Cell) : Piece → Piece
  | .comment c => .comment (g c)
  | .statement text => .statement (text.map m)
  | .opening text brace => .opening (text.map m) (f brace)
  | .closing brace => .closing (f brace)

def Piece.text : Piece → List Cell
  | .statement text => text
  | .opening text _ => text
  | _ => []

variable (f)

def Piece.relocate : Piece → Piece :=
  change (Comment.relocate f) f (Cell.relocate f)

def Piece.relocateWith (p : Piece × List Cell) : Piece × List Cell :=
  (p.1.relocate f, p.2.map (Cell.relocate f))

namespace Piece

variable {flavor : Flavor}

theorem collected_relocate (buffer : List Cell) :
    collected (buffer.map (Cell.relocate f)) = (collected buffer).map (Cell.relocate f) := by
  rw [collected, ← List.map_reverse, trimWhile_map (char_relocate f), collected]

theorem ofStatement_relocate (buffer cells : List Cell) :
    ofStatement (buffer.map (Cell.relocate f)) (cells.map (Cell.relocate f)) =
      relocateWith f (ofStatement buffer cells) := by
  cases cells with
  | nil =>
    rw [List.map_nil, ofStatement, collected_relocate, ofStatement]
    rfl
  | cons d rest =>
    rw [List.map_cons, ofStatement, ofStatement, char_relocate, collected_relocate]
    split_ifs <;> rfl

theorem commentOf_relocate (c : Cell) (body : List Cell) (inline : Bool) :
    commentOf (c.relocate f) (body.map (Cell.relocate f)) inline =
      (commentOf c body inline).relocate f := by
  rw [commentOf, chars_map (char_relocate f)]
  rfl

theorem ofCell_relocate (c : Cell) (rest : List Cell) :
    ofCell flavor (c.relocate f) (rest.map (Cell.relocate f)) =
      ((ofCell flavor c rest).map (relocateWith f)).mapError (ParseError.relocate f) := by
  unfold ofCell
  rw [char_relocate, startsWith_map (char_relocate f), startsWith_map (char_relocate f)]
  split_ifs
  · rfl
  · rfl
  · have read := readComment_relocate f [] (rest.drop 1)
    rw [List.map_nil, List.map_drop] at read
    rw [read]
    cases readComment [] (rest.drop 1) with
    | none => rfl
    | some r =>
      simp only [Option.map_some, Except.map, mapError_ok, Reading.relocate, ← List.map_drop,
        ← List.map_reverse, commentOf_relocate]
      rfl
  · rw [← List.map_drop, takeWhile_map (m := Cell.relocate f) (p := (·.char != '\n')) fun _ => rfl,
      commentOf_relocate, afterLine_relocate]
    rfl
  · rw [← List.map_cons]
    have read : readStatement flavor 0 [] ((c :: rest).map (Cell.relocate f)) = _ :=
      readStatement_relocate f [] (c :: rest) 0
    rw [read]
    cases readStatement flavor 0 [] (c :: rest) with
    | error e => rfl
    | ok r =>
      simp only [Except.map, mapError_ok, Reading.relocate, ofStatement_relocate]

theorem next_relocate (cells : List Cell) :
    next flavor (cells.map (Cell.relocate f)) =
      ((next flavor cells).map (Option.map (relocateWith f))).mapError (ParseError.relocate f) := by
  unfold next
  rw [dropWhile_map (m := Cell.relocate f) (p := isGap) fun _ => rfl]
  cases cells.dropWhile isGap with
  | nil => rfl
  | cons c rest =>
    simp only [List.map_cons, ofCell_relocate]
    cases ofCell flavor c rest <;> rfl

end Piece

/-! ## Outlines -/

namespace Outline

section Change

variable {flavor : Flavor} {limit : Option Nat} (g : Comment → Comment) (f : Position → Position)
  (ns : List Node)

def below (nodes : List Node) : List OpenBlock → Outline
  | [] => ⟨nodes.map (Node.change g f) ++ ns, []⟩
  | b :: blocks =>
    let outer := below b.before blocks
    ⟨nodes.map (Node.change g f), ⟨b.prelude, f b.start, f b.opener, outer.nodes⟩ :: outer.blocks⟩

def change (o : Outline) : Outline :=
  below g f ns o.nodes o.blocks

theorem length_below (nodes : List Node) (blocks : List OpenBlock) :
    (below g f ns nodes blocks).blocks.length = blocks.length := by
  induction blocks generalizing nodes with
  | nil => rfl
  | cons b blocks ih => rw [below, List.length_cons, ih, List.length_cons]

theorem below_cons (n : Node) (nodes : List Node) (blocks : List OpenBlock) :
    below g f ns (n :: nodes) blocks =
      ⟨n.change g f :: (below g f ns nodes blocks).nodes, (below g f ns nodes blocks).blocks⟩ := by
  cases blocks <;> rfl

theorem isFull_change (o : Outline) : (o.change g f ns).isFull limit = o.isFull limit := by
  unfold isFull
  rw [change, length_below]

theorem add_change {m : Cell → Cell} (carries : Carries f m) (o : Outline) {piece : Piece}
    (head : ∀ c ∈ piece.text.head?, (m c).pos = f c.pos) :
    (o.change g f ns).add flavor limit (piece.change g f m) =
      ((o.add flavor limit piece).map (change g f ns)).mapError (ParseError.relocate f) := by
  cases piece with
  | comment c =>
    simp only [Piece.change, add, Except.map, mapError_ok, change, below_cons]
    rfl
  | statement text =>
    have node : nodeOf flavor (text.map m) = _ := nodeOf_carried carries text g head
    simp only [Piece.change, add, node]
    cases nodeOf flavor text with
    | error e => rfl
    | ok n =>
      cases n with
      | none => rfl
      | some n => simp only [Except.map, mapError_ok, Option.map_some, change, below_cons]
  | opening text brace =>
    have start : ((text.map m).head?.map Cell.pos).getD (f brace) =
        f ((text.head?.map Cell.pos).getD brace) := by
      cases text with
      | nil => rfl
      | cons c text => exact head c rfl
    simp only [Piece.change, add, isFull_change, start, preludeOf_map carries.char]
    split
    · rfl
    · simp only [Except.map, mapError_ok, change, below, List.map_nil]
  | closing brace =>
    obtain ⟨nodes, blocks⟩ := o
    cases blocks with
    | nil => rfl
    | cons b blocks =>
      simp only [Piece.change, add, change, below, Except.map, mapError_ok, below_cons,
        Node.change, Node.changeAll_eq_map, List.map_reverse]

theorem finish_change (o : Outline) :
    (o.change g f ns).finish =
      (o.finish.map fun nodes => ns.reverse ++ nodes.map (Node.change g f)).mapError
        (ParseError.relocate f) := by
  obtain ⟨nodes, blocks⟩ := o
  cases blocks with
  | nil => simp [finish, change, below, Except.map, mapError_ok]
  | cons b blocks => rfl

theorem addAll_change {m : Cell → Cell} (carries : Carries f m) (o : Outline) {ps : List Piece}
    (heads : ∀ p ∈ ps, ∀ c ∈ p.text.head?, (m c).pos = f c.pos) :
    (o.change g f ns).addAll flavor limit (ps.map (Piece.change g f m)) =
      ((o.addAll flavor limit ps).map (change g f ns)).mapError (ParseError.relocate f) := by
  induction ps generalizing o with
  | nil => rfl
  | cons piece ps ih =>
    have here := heads piece List.mem_cons_self
    have later (p : Piece) (mem : p ∈ ps) := heads p (.tail _ mem)
    rw [List.map_cons, addAll, addAll, add_change g f ns carries o here]
    cases o.add flavor limit piece with
    | error e => rfl
    | ok mid => exact ih mid later

end Change

variable {f} {flavor : Flavor} {limit : Option Nat} {ns : List Node}

def relocate (f : Position → Position) (ns : List Node) : Outline → Outline :=
  change (Comment.relocate f) f ns

theorem readAll_relocate (column : ∀ p, f ⟨p.line, p.column + 1⟩ = ⟨(f p).line, (f p).column + 1⟩)
    (o : Outline) (cells : List Cell) :
    (o.relocate f ns).readAll flavor limit (cells.map (Cell.relocate f)) =
      ((o.readAll flavor limit cells).map fun nodes =>
        ns.reverse ++ nodes.map (Node.relocate f)).mapError (ParseError.relocate f) := by
  have carries : Carries f (Cell.relocate f) := ⟨fun _ => rfl, fun _ _ => rfl, column⟩
  have step (o : Outline) (piece : Piece) : (o.relocate f ns).add flavor limit (piece.relocate f) =
      ((o.add flavor limit piece).map (relocate f ns)).mapError (ParseError.relocate f) :=
    add_change _ _ _ carries o fun _ _ => rfl
  fun_induction Outline.readAll flavor limit o cells with
  | case1 o cells e failed => rw [readAll_eq, Piece.next_relocate, failed]; rfl
  | case2 o cells done =>
    rw [readAll_eq, Piece.next_relocate, done]
    exact finish_change _ f ns o
  | case3 o cells piece rest next e failed =>
    rw [readAll_eq, Piece.next_relocate, next]
    simp only [Except.map, mapError_ok, mapError_error, Option.map_some, Piece.relocateWith,
      Except.bind, Option.elim_some, step, failed]
  | case4 o cells piece rest next mid added ih =>
    rw [← ih, readAll_eq, Piece.next_relocate, next]
    simp only [Except.map, mapError_ok, Option.map_some, Piece.relocateWith, Except.bind,
      Option.elim_some, step, added]

end Outline

end SheetLint.Brace
