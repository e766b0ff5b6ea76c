import SheetLint.Indented.Line

/-!
The tree that indentation makes. Entries that stand deeper than a rule belong to its block, and
entries that stand deeper than a declaration continue its value. All entries of one block share
one indentation.
-/

namespace SheetLint.Indented

def continued (d : Declaration) (lines : List Entry) : Declaration :=
  { d with
    value := lines.foldl (fun v e => v ++ "\n" ++ String.ofList (Text.trimEnd e.raw)) d.value }

def selectorEnd (start : Position) (selector : String) : Position :=
  ⟨start.line, start.column + selector.length⟩

def misplaced (e : Entry) : ParseError :=
  ⟨.unexpectedIndentation, ⟨e.start.line, 1⟩⟩

/-- The nodes that entries make when each is indented by `indent` or is deeper than one before it.
At most `depth` more blocks may be opened one inside the other. -/
def nodesOf (depth indent : Nat) : List Entry → Except ParseError (List Node)
  | [] => .ok []
  | e :: rest =>
    if e.indent = indent then
      let inner := rest.takeWhile (indent < ·.indent)
      let after := rest.dropWhile (indent < ·.indent)
      let node : Except ParseError Node :=
        match e.kind with
        | .comment text inline =>
          match inner with
          | [] => .ok (.comment ⟨text, e.start, inline⟩)
          | deeper :: _ => .error (misplaced deeper)
        | .declaration d => .ok (.declaration (continued d inner))
        | .selector text =>
          (blockOf depth e.start inner).map
            (.block (.selector text) e.start (selectorEnd e.start text))
        | .atRule name params =>
          if inner.isEmpty then .ok (.statement (.atRule name params) e.start)
          else (blockOf depth e.start inner).map (.block (.atRule name params) e.start e.start)
      match node with
      | .error err => .error err
      | .ok n => (nodesOf depth indent after).map (n :: ·)
    else .error (misplaced e)
termination_by entries => 2 * entries.length
decreasing_by
  · have := (List.takeWhile_prefix (fun x : Entry => decide (indent < x.indent)) (l := rest)).length_le
    simp only [List.length_cons]
    omega
  · have := (List.takeWhile_prefix (fun x : Entry => decide (indent < x.indent)) (l := rest)).length_le
    simp only [List.length_cons]
    omega
  · have := (List.dropWhile_suffix (fun x : Entry => decide (indent < x.indent)) (l := rest)).length_le
    simp only [List.length_cons]
    omega
where
  /-- The nodes of the block that the entries `inner` make for the statement at `start`. -/
  blockOf (depth : Nat) (start : Position) (inner : List Entry) : Except ParseError (List Node) :=
    match inner, depth with
    | [], _ => .ok []
    | _ :: _, 0 => .error ⟨.nestingTooDeep, start⟩
    | first :: rest, depth + 1 => nodesOf depth first.indent (first :: rest)
  termination_by 2 * inner.length + 1

def parse (text : List Char) : Except ParseError Sheet :=
  match entries (Text.dropByteOrderMark text) with
  | .error e => .error e
  | .ok es => (nodesOf Sheet.maxNesting 0 es).map Sheet.mk

end SheetLint.Indented
