import SheetLint.Brace.Statement

/-!
From pieces to a tree. An outline is a tree under construction: the blocks still open and the nodes
finished so far. `Outline.add` puts one piece into it, `Outline.finish` closes it, and `parse` reads
a whole text this way.
-/

namespace SheetLint.Brace

/-- A block that is still open, with the nodes that precede it in its container, last first. -/
structure OpenBlock where
  prelude : Prelude
  start : Position
  opener : Position
  before : List Node
deriving Repr

/-- A tree under construction. -/
structure Outline where
  /-- The nodes of the innermost container so far, last first. -/
  nodes : List Node
  /-- The blocks still open, innermost first. -/
  blocks : List OpenBlock
deriving Repr

namespace Outline

def empty : Outline := ⟨[], []⟩

def isFull (limit : Option Nat) (o : Outline) : Bool :=
  match limit with
  | some n => n ≤ o.blocks.length
  | none => false

def add (flavor : Flavor) (limit : Option Nat) (o : Outline) : Piece → Except ParseError Outline
  | .comment c => .ok { o with nodes := .comment c :: o.nodes }
  | .statement text =>
    match nodeOf flavor text with
    | .error e => .error e
    | .ok none => .ok o
    | .ok (some n) => .ok { o with nodes := n :: o.nodes }
  | .opening text brace =>
    if o.isFull limit then .error ⟨.nestingTooDeep, brace⟩
    else
      let start := (text.head?.map Cell.pos).getD brace
      .ok ⟨[], ⟨preludeOf text, start, brace, o.nodes⟩ :: o.blocks⟩
  | .closing brace =>
    match o.blocks with
    | [] => .error ⟨.unexpectedBrace, brace⟩
    | b :: blocks => .ok ⟨.block b.prelude b.start b.opener o.nodes.reverse :: b.before, blocks⟩

def finish (o : Outline) : Except ParseError (List Node) :=
  match o.blocks with
  | [] => .ok o.nodes.reverse
  | b :: _ => .error ⟨.unclosedBlock, b.opener⟩

def readAll (flavor : Flavor) (limit : Option Nat) (o : Outline) (cells : List Cell) :
    Except ParseError (List Node) :=
  match _h : Piece.next flavor cells with
  | .error e => .error e
  | .ok none => o.finish
  | .ok (some (piece, rest)) =>
    match o.add flavor limit piece with
    | .error e => .error e
    | .ok o => o.readAll flavor limit rest
termination_by cells.length
decreasing_by exact Piece.length_next_lt (by assumption)

end Outline

/-- The tree of a text, when blocks may be nested as deep as a limit says. -/
def parseWithin (flavor : Flavor) (limit : Option Nat) (text : List Char) :
    Except ParseError Sheet :=
  let cells := Cell.ofChars .start (Text.dropByteOrderMark text)
  (Outline.empty.readAll flavor limit cells).map Sheet.mk

def parse (flavor : Flavor) (text : List Char) : Except ParseError Sheet :=
  parseWithin flavor (some Sheet.maxNesting) text

end SheetLint.Brace
