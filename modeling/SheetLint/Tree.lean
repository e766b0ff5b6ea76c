import SheetLint.Position

/-!
The tree of a style sheet. A sheet is a list of nodes: comments, declarations, statements without a
body (`@import "a";`, a mixin call) and blocks. A block without nodes is empty; a statement without
a block is not.

`Node.walk` visits nodes in pre-order and `Sheet.containers` visits the node lists.
-/

namespace SheetLint

structure Comment where
  text : String
  start : Position
  /-- Whether the comment runs to the end of its line. -/
  inline : Bool
deriving DecidableEq, Repr

structure Declaration where
  prop : String
  /-- The value without the blanks around it and without a closing `!important`. -/
  value : String
  important : Bool
  start : Position
  valueStart : Position
deriving DecidableEq, Repr

/-- What a statement says before its block: the selector of a rule, or the name and the parameters
of an at-rule. -/
inductive Prelude where
  | selector (text : String)
  | atRule (name params : String)
deriving DecidableEq, Repr

inductive Node where
  | comment (comment : Comment)
  | declaration (declaration : Declaration)
  | statement (prelude : Prelude) (start : Position)
  | block (prelude : Prelude) (start opener : Position) (nodes : List Node)
deriving Repr

structure Sheet where
  nodes : List Node
deriving Repr

namespace Node

def start : Node → Position
  | .comment c => c.start
  | .declaration d => d.start
  | .statement _ start => start
  | .block _ start _ _ => start

def block? : Node → Option (Position × List Node)
  | .block _ _ opener nodes => some (opener, nodes)
  | _ => none

mutual

/-- A node followed by all that lies in it, in pre-order. -/
def walk : Node → List Node
  | .block p start opener nodes => .block p start opener nodes :: walkAll nodes
  | .comment c => [.comment c]
  | .declaration d => [.declaration d]
  | .statement p start => [.statement p start]

def walkAll : List Node → List Node
  | [] => []
  | n :: ns => walk n ++ walkAll ns

end

end Node

namespace Sheet

/-- The deepest nesting of blocks that a text may have. -/
def maxNesting : Nat := 128

def walk (s : Sheet) : List Node :=
  Node.walkAll s.nodes

def nodeCount (s : Sheet) : Nat :=
  s.walk.length

/-- The node lists of a sheet: its own, then each block's in pre-order of the blocks. -/
def containers (s : Sheet) : List (List Node) :=
  s.nodes :: s.walk.filterMap fun n => n.block?.map (·.2)

def declarations (s : Sheet) : List Declaration :=
  s.walk.filterMap fun
    | .declaration d => some d
    | _ => none

end Sheet

end SheetLint
