import SheetLint.Proofs.Slice
import SheetLint.Proofs.Indented.Accounting
import SheetLint.Proofs.Indented.Descent

namespace SheetLint.Indented

/-! ## Lines -/

def commentBodyFrom? (tail : List Char) (lines : Cursor Line) :
    Option (Option (List Char × Cursor Line)) :=
  match Text.findFrom (fun c cs => c == '*' && cs.head? == some '/') 0 tail with
  | some stop => (Text.takeBytes stop tail).map fun body => some (body, lines)
  | none =>
    match _h : lines.peek? with
    | none => some none
    | some line =>
      (commentBodyFrom? line.chars lines.advance).map fun r =>
        r.map fun r => (tail ++ '\n' :: r.1, r.2)
termination_by lines.left.length
decreasing_by
  rw [Cursor.left_eq_cons _h]
  exact Nat.lt_succ_self _

def colonFrom? (content : List Char) (offset : Nat) : List Char → Option (Option Nat)
  | [] => some none
  | c :: cs =>
    if c = ':' then do
      let after ← Text.from? (offset + 1) content
      if endsProp after then some (some offset) else colonFrom? content (offset + c.utf8Size) cs
    else colonFrom? content (offset + c.utf8Size) cs

def declarationFrom? (content : List Char) (start : Position) : Option (Option Declaration) := do
  match ← colonFrom? content 0 content with
  | none => some none
  | some colon =>
    let prop := Text.trim (← Text.takeBytes colon content)
    if prop.isEmpty || prop.any Text.isBlank then some none
    else
      let rest ← Text.from? (colon + 1) content
      let lead ← subtract? (Text.size rest) (Text.size (rest.dropWhile Text.isBlank))
      let before ← Text.takeBytes (colon + 1 + lead) content
      let (value, important) ← splitImportant? (Text.trim rest)
      some <| some
        { prop := String.ofList prop
          value := String.ofList value
          important
          start
          valueStart := start.advance before }

def kindFrom? (content : List Char) (start : Position) (lines : Cursor Line) :
    Option (Except ParseError (Entry.Kind × Cursor Line)) :=
  match content with
  | '/' :: '/' :: rest => some (.ok (.comment (String.ofList (Text.trim rest)) true, lines))
  | '/' :: '*' :: rest =>
    (commentBodyFrom? rest lines).map fun
      | none => .error ⟨.unclosedComment, start⟩
      | some (body, lines) => .ok (.comment (String.ofList (Text.trim body)) false, lines)
  | '@' :: rest => do
    let length := (Text.findFrom (fun c _ => !isNameChar c) 0 rest).getD (Text.size rest)
    let name ← Text.takeBytes length rest
    let params ← Text.from? length rest
    some (.ok (.atRule (String.ofList name) (String.ofList (Text.trim params)), lines))
  | _ =>
    (declarationFrom? content start).map fun
      | some d => .ok (.declaration d, lines)
      | none => .ok (.selector (String.ofList content), lines)

structure Scanner where
  used : Option Char
  entries : List Entry
  lines : Cursor Line

def Scanner.state (s : Scanner) : OpenScan :=
  ⟨s.used, s.entries, s.lines.left⟩

def Scanner.turn? (s : Scanner) : Option (Turn Scanner (Except ParseError (List Entry))) :=
  if s.lines.next < s.lines.items.length then do
    let line ← s.lines.peek?
    let indent := line.chars.takeWhile isIndent
    -- The characters of the indentation are counted, and as many bytes are cut off.
    let content := Text.trimEnd (← Text.from? indent.length line.chars)
    let start : Position := ⟨line.number, indent.length + 1⟩
    if content.isEmpty then some (.next ⟨s.used, s.entries, s.lines.advance⟩)
    else if indentsWith s.used indent then
      (kindFrom? content start s.lines.advance).map fun
        | .error e => .done (.error e)
        | .ok (kind, lines) =>
          .next ⟨s.used.or indent.head?, ⟨indent.length, start, line.chars, kind⟩ :: s.entries, lines⟩
    else some (.done (.error ⟨.mixedIndentation, ⟨line.number, 1⟩⟩))
  else some (.done (.ok s.entries.reverse))

theorem findFrom_close (offset : Nat) (cs : List Char) :
    Text.findFrom (fun c cs => c == '*' && cs.head? == some '/') offset cs =
      (beforeClose? cs).map (offset + Text.size ·) := by
  fun_induction beforeClose? cs generalizing offset with
  | case1 c d rest closes => simp [Text.findFrom, closes, Text.size]
  | case2 c d rest other ih =>
    have open' : (c == '*' && (d :: rest).head? == some '/') = false := by simpa using other
    rw [Text.findFrom, open', if_neg Bool.false_ne_true, ih, Option.map_map]
    congr 1
    funext body
    rw [Function.comp_apply, Text.size_cons, Nat.add_assoc]
  | case3 cs short =>
    rcases cs with _ | ⟨c, _ | ⟨d, rest⟩⟩
    · rfl
    · simp [Text.findFrom]
    · exact absurd rfl (short c d rest)

theorem commentBodyFrom?_eq (tail : List Char) (lines : Cursor Line) :
    (commentBodyFrom? tail lines).map (·.map fun r => (r.1, r.2.left)) =
      some (commentBody? tail lines.left) := by
  fun_induction commentBodyFrom? tail lines with
  | case1 tail lines stop found =>
    rw [findFrom_close, Option.map_eq_some_iff] at found
    obtain ⟨body, closed, rfl⟩ := found
    have slice : Text.takeBytes (0 + Text.size body) tail = some body := by
      rw [Nat.zero_add, Text.takeBytes_eq_some_iff]
      exact ⟨_, eq_of_beforeClose? closed, rfl⟩
    simp only [slice, Option.map_some]
    generalize lines.left = rest
    cases rest <;> simp [commentBody?, closed]
  | case2 tail lines missing ended =>
    rw [findFrom_close, Option.map_eq_none_iff] at missing
    rw [Cursor.left_eq_nil ended, commentBody?, missing]
    rfl
  | case3 tail lines missing line here ih =>
    rw [findFrom_close, Option.map_eq_none_iff] at missing
    obtain ⟨q, read, same⟩ := Option.map_eq_some_iff.1 ih
    rw [Cursor.left_eq_cons here, commentBody?, missing, read, ← same]
    cases q <;> rfl

theorem from?_colon (before after : List Char) :
    Text.from? (Text.size before + 1) (before ++ ':' :: after) = some after := by
  have slice := Text.from?_append (before ++ [':']) after
  rwa [List.append_assoc, List.singleton_append, Text.size_append, Text.size_singleton] at slice

theorem colonFrom?_eq (read cs : List Char) :
    colonFrom? (read ++ cs) (Text.size read) cs =
      some ((splitColon? cs).map fun r => Text.size (read ++ r.1)) := by
  induction cs generalizing read with
  | nil => rfl
  | cons c cs ih =>
    have later : colonFrom? (read ++ c :: cs) (Text.size read + c.utf8Size) cs =
        some (((splitColon? cs).map fun r => (c :: r.1, r.2)).map fun r => Text.size (read ++ r.1)) := by
      have more := ih (read ++ [c])
      rw [List.append_assoc, List.singleton_append, Text.size_append, Text.size_singleton] at more
      rw [more, Option.map_map]
      simp [Function.comp_def]
    rw [colonFrom?, splitColon?]
    by_cases colon : c = ':'
    · subst colon
      simp only [if_true, from?_colon, Option.bind_eq_bind, Option.bind_some, true_and]
      split_ifs with ends
      · simp
      · exact later
    · rw [if_neg colon, if_neg fun both => colon both.1]
      exact later

theorem declarationFrom?_eq (content : List Char) (start : Position) :
    declarationFrom? content start = some (declaration? content start) := by
  have found : colonFrom? content 0 content =
      some ((splitColon? content).map fun r => Text.size r.1) := colonFrom?_eq [] content
  rw [declarationFrom?, declaration?, found]
  cases cut : splitColon? content with
  | none => rfl
  | some r =>
    obtain ⟨before, after⟩ := r
    obtain rfl := eq_of_splitColon? cut
    simp only [Option.bind_eq_bind, Option.bind_some, Option.map_some, Text.takeBytes_size,
      from?_colon, splitImportant?_eq]
    split_ifs with bad
    · rfl
    · -- The blanks before the value are what the rest is longer than its trimmed form.
      have split : after.takeWhile Text.isBlank ++ after.dropWhile Text.isBlank = after :=
        List.takeWhile_append_dropWhile
      have lead : subtract? (Text.size after) (Text.size (after.dropWhile Text.isBlank)) =
          some (Text.size (after.takeWhile Text.isBlank)) := by
        have size := Text.size_append (after.takeWhile Text.isBlank) (after.dropWhile Text.isBlank)
        rw [split] at size
        rw [size, subtract?_add]
      have slice : Text.takeBytes (Text.size before + 1 + Text.size (after.takeWhile Text.isBlank))
          (before ++ ':' :: after) = some (before ++ ':' :: after.takeWhile Text.isBlank) := by
        rw [Text.takeBytes_eq_some_iff]
        refine ⟨after.dropWhile Text.isBlank, by rw [List.append_assoc, List.cons_append, split], ?_⟩
        rw [Text.size_append, Text.size_cons, ← Nat.add_assoc]
        rfl
      simp only [lead, Option.bind_some, slice]

theorem kindFrom?_eq (content : List Char) (start : Position) (lines : Cursor Line) :
    (kindFrom? content start lines).map (·.map fun r => (r.1, r.2.left)) =
      some (kindOf content start lines.left) := by
  unfold kindFrom?
  split
  · rfl
  next rest =>
    obtain ⟨q, read, same⟩ := Option.map_eq_some_iff.1 (commentBodyFrom?_eq rest lines)
    simp only [kindOf, read, ← same]
    cases q <;> rfl
  next rest =>
    have length : (Text.findFrom (fun c _ => !isNameChar c) 0 rest).getD (Text.size rest) =
        Text.size (rest.takeWhile isNameChar) := by
      have found := Text.getD_findFrom (!isNameChar ·) 0 rest
      simpa using found
    have name := Text.takeBytes_size (rest.takeWhile isNameChar) (rest.dropWhile isNameChar)
    have params := Text.from?_append (rest.takeWhile isNameChar) (rest.dropWhile isNameChar)
    rw [List.takeWhile_append_dropWhile] at name params
    simp only [length, name, params, Option.bind_eq_bind, Option.bind_some]
    rfl
  next line block at' =>
    rw [kindOf.eq_4 _ _ _ line block at', declarationFrom?_eq]
    cases declaration? content start <;> rfl

theorem from?_indent (line : List Char) :
    Text.from? (line.takeWhile isIndent).length line = some (line.dropWhile isIndent) := by
  have ascii : ∀ c ∈ line.takeWhile isIndent, c.utf8Size = 1 := by
    intro c mem
    have blank := List.mem_takeWhile_imp mem
    rw [isIndent, Bool.or_eq_true, beq_iff_eq, beq_iff_eq] at blank
    rcases blank with rfl | rfl <;> rfl
  have slice := Text.from?_append (line.takeWhile isIndent) (line.dropWhile isIndent)
  rwa [List.takeWhile_append_dropWhile, Text.size_eq_length ascii] at slice

theorem Scanner.turn?_eq (s : Scanner) :
    s.turn?.map (Turn.map Scanner.state) = some (scanTurn s.state) := by
  unfold Scanner.turn? scanTurn
  split_ifs with more
  · have here : s.lines.peek? = some s.lines.items[s.lines.next] := List.getElem?_eq_getElem more
    generalize s.lines.items[s.lines.next] = line at here
    simp only [state, Cursor.left_eq_cons here, here, from?_indent, Option.bind_eq_bind, Option.bind_some]
    split_ifs
    · rfl
    · obtain ⟨read, from', same⟩ := Option.map_eq_some_iff.1
        (kindFrom?_eq (Text.trimEnd (line.chars.dropWhile isIndent))
          ⟨line.number, (line.chars.takeWhile isIndent).length + 1⟩ s.lines.advance)
      rw [from', ← same]
      cases read <;> rfl
    · rfl
  · have ended : s.lines.left = [] := List.drop_eq_nil_of_le (Nat.not_lt.1 more)
    simp only [state, ended]
    rfl

def Scanner.ofText (text : List Char) : Scanner :=
  ⟨none, [], ⟨linesOf text, 0⟩⟩

theorem Scanner.ends (text : List Char) :
    ∃ n, Turn.Ends (Turn.orFail Scanner.turn?) n (.ofText text) (some (Indented.entries text)) := by
  obtain ⟨n, -, scan⟩ := computes_scanTurn.ends (ofText text).state
  refine ⟨n, ?_⟩
  have whole : (entriesOf none (linesOf text)).map ([].reverse ++ ·) = Indented.entries text := by
    rw [Indented.entries]
    cases entriesOf none (linesOf text) <;> rfl
  exact whole ▸ Turn.Ends.orFail turn?_eq scan _ rfl

/-! ## Entries -/

def takeKind? (entries : Cursor Entry) : Option (Entry.Kind × Cursor Entry) := do
  let index ← subtract? entries.next 1
  let e ← entries.items[index]?
  some (e.kind, { entries with items := entries.items.set index { e with kind := .comment "" true } })

def continuedFrom (indent : Nat) (d : Declaration) (entries : Cursor Entry) :
    Declaration × Cursor Entry :=
  match _h : entries.peek? with
  | none => (d, entries)
  | some e =>
    if indent < e.indent then continuedFrom indent (continued d [e]) entries.advance
    else (d, entries)
termination_by entries.left.length
decreasing_by
  rw [Cursor.left_eq_cons _h]
  exact Nat.lt_succ_self _

def levelTurn? (indent : Nat) (nodes : List Node) (entries : Cursor Entry) :
    Option (Visit (Cursor Entry) Level) :=
  match entries.peek? with
  | none => some (.done (.ok (nodes.reverse, entries)))
  | some e =>
    if e.indent < indent then some (.done (.ok (nodes.reverse, entries)))
    else if indent < e.indent then some (.done (.error (misplaced e)))
    else do
      let child := entries.advance.peek?.filter (e.indent < ·.indent)
      let (kind, entries) ← takeKind? entries.advance
      match kind, child with
      | .comment text inline, none => some (.next (.comment ⟨text, e.start, inline⟩ :: nodes) entries)
      | .comment _ _, some next => some (.done (.error (misplaced next)))
      | .declaration d, _ =>
        let (d, entries) := continuedFrom e.indent d entries
        some (.next (.declaration d :: nodes) entries)
      | .selector text, none =>
        some (.next (.block (.selector text) e.start (selectorEnd e.start text) [] :: nodes) entries)
      | .selector text, some next =>
        some <|
          .enter ⟨next.indent, .selector text, e.start, selectorEnd e.start text, nodes⟩ entries
      | .atRule name params, none =>
        some (.next (.statement (.atRule name params) e.start :: nodes) entries)
      | .atRule name params, some next =>
        some (.enter ⟨next.indent, .atRule name params, e.start, e.start, nodes⟩ entries)

theorem takeKind?_advance {entries : Cursor Entry} {e : Entry} (here : entries.peek? = some e) :
    ∃ replaced : Cursor Entry, takeKind? entries.advance = some (e.kind, replaced) ∧
      replaced.left = entries.advance.left := by
  have passed : entries.items[entries.next]? = some e := here
  refine ⟨⟨entries.items.set entries.next { e with kind := .comment "" true }, entries.next + 1⟩, ?_, ?_⟩
  · simp only [takeKind?, Cursor.advance, subtract?_add, passed, Option.bind_eq_bind, Option.bind_some]
  · exact List.drop_set_of_lt (Nat.lt_succ_self _)

theorem continuedFrom_eq (indent : Nat) (d : Declaration) (entries : Cursor Entry) :
    (continuedFrom indent d entries).1 =
        continued d (entries.left.takeWhile (indent < ·.indent)) ∧
      (continuedFrom indent d entries).2.left = entries.left.dropWhile (indent < ·.indent) := by
  fun_induction continuedFrom indent d entries with
  | case1 d entries ended =>
    rw [Cursor.left_eq_nil ended]
    exact ⟨rfl, rfl⟩
  | case2 d entries e here deeper ih =>
    rw [Cursor.left_eq_cons here, List.takeWhile_cons_of_pos (by simpa using deeper),
      List.dropWhile_cons_of_pos (by simpa using deeper)]
    exact ih
  | case3 d entries e here shallow =>
    rw [Cursor.left_eq_cons here, List.takeWhile_cons_of_neg (by simpa using shallow),
      List.dropWhile_cons_of_neg (by simpa using shallow)]
    exact ⟨rfl, rfl⟩

theorem levelTurn?_eq (indent : Nat) (nodes : List Node) (entries : Cursor Entry) :
    (levelTurn? indent nodes entries).map (Visit.map Cursor.left) =
      some (visit indent nodes entries.left) := by
  unfold levelTurn?
  cases here : entries.peek? with
  | none => simp [Cursor.left_eq_nil here, visit, Visit.map, Except.map]
  | some e =>
    obtain ⟨replaced, taken, left⟩ := takeKind?_advance here
    have child : entries.advance.peek?.filter (e.indent < ·.indent) =
        deeper? e.indent entries.advance.left := by
      rw [Cursor.peek?_eq, deeper?]
    rw [Cursor.left_eq_cons here, visit]
    simp only [taken, child, Option.bind_eq_bind, Option.bind_some]
    split_ifs
    · simp [Visit.map, Except.map, Cursor.left_eq_cons here]
    · rfl
    · rw [← left]
      cases e.kind with
      | declaration d =>
        obtain ⟨value, behind⟩ := continuedFrom_eq e.indent d replaced
        simp only [Option.map_some, Visit.map, value, behind]
      | comment text inline => cases deeper? e.indent replaced.left <;> rfl
      | selector text => cases deeper? e.indent replaced.left <;> rfl
      | atRule name params => cases deeper? e.indent replaced.left <;> rfl

end SheetLint.Indented
