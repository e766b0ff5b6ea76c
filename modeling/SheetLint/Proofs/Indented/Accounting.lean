import SheetLint.Proofs.Indented.Passages

/-!
Where the characters of an indented sheet go. The source falls apart into stretches: text that the tree
keeps in one of its strings, marks that tell the kinds of the nodes, and text that is lost. Text is lost
behind the `*/` of a comment, and in the further lines of a comment that stands where a value goes on
(`parse_accounts`).
-/

namespace SheetLint

open Text (visible visible_append visible_cons)

/-! ## The strings of a tree -/

def Prelude.strings : Prelude → List String
  | .selector text => [text]
  | .atRule name params => [name, params]

def Node.strings : Node → List String
  | .comment c => [c.text]
  | .declaration d => [d.prop, d.value]
  | .statement prelude _ => prelude.strings
  | .block prelude _ _ _ => prelude.strings

def Node.visible (n : Node) : List Char :=
  n.strings.flatMap fun s => Text.visible s.toList

namespace Indented

def Entry.Kind.visible : Entry.Kind → List Char
  | .comment text _ => Text.visible text.toList
  | .declaration d => Text.visible d.prop.toList ++ Text.visible d.value.toList
  | .selector text => Text.visible text.toList
  | .atRule name params => Text.visible name.toList ++ Text.visible params.toList

/-! ## Stretches of the source -/

inductive Stretch where
  | kept (text : List Char)
  | mark (text : List Char)
  | lost (text : List Char)
deriving DecidableEq, Repr

namespace Stretch

def visible : Stretch → List Char
  | kept text | mark text | lost text => Text.visible text

def told : Stretch → List Char
  | kept text => Text.visible text
  | mark _ | lost _ => []

end Stretch

/-- Whether a text tells what a node is: the opening or closing of a comment, the `@` of an at-rule, the
colon of a declaration, or the flag `!important` in any case. -/
def IsMark (text : List Char) : Prop :=
  text ∈ [['/', '/'], ['/', '*'], ['*', '/'], ['@'], [':']] ∨ Text.lowerAscii text = importantFlag

def assigned (raw : List Char) : List Stretch :=
  if (splitImportant raw).2 then
    [.kept (splitImportant raw).1, .mark (raw.drop (raw.length - importantFlag.length))]
  else [.kept raw]

namespace Passage

def content (p : Passage) : List Char :=
  Text.trimEnd (p.entry.raw.dropWhile isIndent)

def own (p : Passage) : List Stretch :=
  match p.entry.kind with
  | .comment _ true => [.mark ['/', '/'], .kept (p.content.drop 2)]
  | .comment _ false =>
    let inside := p.content.drop 2 ++ p.below
    match beforeClose? inside with
    | some body =>
      [.mark ['/', '*'], .kept body, .mark ['*', '/'], .lost (inside.drop (body.length + 2))]
    | none => [.kept (p.content ++ p.below)]
  | .declaration _ =>
    match splitColon? p.content with
    | some (before, after) => .kept before :: .mark [':'] :: assigned (Text.trim after)
    | none => [.kept p.content]
  | .selector _ => [.kept p.content]
  | .atRule _ _ => [.mark ['@'], .kept (p.content.drop 1)]

end Passage

def Entry.goesOn (e : Entry) : Option Nat :=
  match e.kind with
  | .declaration _ => some e.indent
  | _ => none

theorem Entry.eq_of_mem_goesOn {e : Entry} {indent : Nat} (h : indent ∈ e.goesOn) :
    indent = e.indent := by
  unfold goesOn at h
  split at h <;> cases h
  rfl

/-- The stretches of passages, which go on a value if they are deeper than `under`. -/
def stretches (under : Option Nat) : List Passage → List Stretch
  | [] => []
  | p :: ps =>
    if under.any (· < p.entry.indent) then
      .kept p.entry.raw :: .lost p.below :: stretches under ps
    else p.own ++ stretches p.entry.goesOn ps

/-! ## Comments -/

theorem eq_of_beforeClose? {cs body : List Char} (h : beforeClose? cs = some body) :
    cs = body ++ '*' :: '/' :: cs.drop (body.length + 2) := by
  fun_induction beforeClose? cs generalizing body with
  | case1 c d rest closed =>
    cases h
    simp [closed]
  | case2 c d rest opened ih =>
    obtain ⟨body, found, rfl⟩ := Option.map_eq_some_iff.1 h
    conv_lhs => rw [ih found]
    simp
  | case3 => cases h

theorem beforeClose?_newline (more : List Char) :
    beforeClose? ('\n' :: more) = (beforeClose? more).map ('\n' :: ·) := by
  cases more with
  | nil => rfl
  | cons d more => rw [beforeClose?, if_neg (by simp)]

theorem beforeClose?_line {tail : List Char} (opened : beforeClose? tail = none) (more : List Char) :
    beforeClose? (tail ++ '\n' :: more) = (beforeClose? more).map (tail ++ '\n' :: ·) := by
  fun_induction beforeClose? tail with
  | case1 => cases opened
  | case2 c d rest other ih =>
    have later := ih (Option.map_eq_none_iff.1 opened)
    rw [List.cons_append] at later
    rw [List.cons_append, List.cons_append, beforeClose?, if_neg other, later, Option.map_map]
    rfl
  | case3 tail short =>
    cases tail with
    | nil => exact beforeClose?_newline more
    | cons c tail =>
      cases tail with
      | nil =>
        rw [List.singleton_append, beforeClose?, if_neg (by simp), beforeClose?_newline, Option.map_map]
        rfl
      | cons d tail => exact (short c d tail rfl).elim

theorem beforeClose?_of_commentBody? {tail : List Char} {lines : List Line}
    {r : List Char × List Line} (h : commentBody? tail lines = some r) :
    ∃ further, lines = further ++ r.2 ∧
      beforeClose? (tail ++ further.flatMap fun line => '\n' :: line.chars) = some r.1 := by
  fun_induction commentBody? tail lines generalizing r with
  | case1 tail =>
    obtain ⟨body, found, rfl⟩ := Option.map_eq_some_iff.1 h
    exact ⟨[], rfl, by simpa using found⟩
  | case2 tail line lines body found =>
    cases h
    exact ⟨[], rfl, by simpa using found⟩
  | case3 tail line lines opened ih =>
    obtain ⟨r', read, rfl⟩ := Option.map_eq_some_iff.1 h
    obtain ⟨further, rfl, found⟩ := ih read
    refine ⟨line :: further, rfl, ?_⟩
    rw [List.flatMap_cons, List.cons_append, beforeClose?_line opened, found]
    rfl

/-! ## One passage -/

/-- Whether a text is the end of a passage that is a comment between `/*` and `*/`. -/
def Passage.Loses (p : Passage) (text : List Char) : Prop :=
  (∃ said, p.entry.kind = .comment said false) ∧ text <:+ p.content ++ p.below

structure Passage.Splits (p : Passage) (stretches : List Stretch) : Prop where
  whole : stretches.flatMap Stretch.visible = visible p.entry.raw ++ visible p.below
  kept : stretches.flatMap Stretch.told = p.entry.kind.visible
  marks : ∀ m, .mark m ∈ stretches → IsMark m
  lost : ∀ t, .lost t ∈ stretches → p.Loses t
  goes_on : p.below = [] ∨ ∃ said, p.entry.kind = .comment said false

theorem visible_content (p : Passage) : visible p.content = visible p.entry.raw := by
  rw [Passage.content, Text.visible_trimEnd, visible_dropWhile_isIndent]

theorem assigned_cases (raw : List Char) :
    (splitImportant raw = (raw, false) ∧ assigned raw = [.kept raw]) ∨
      ∃ before flag, raw = before ++ flag ∧ Text.lowerAscii flag = importantFlag ∧
        splitImportant raw = (Text.trimEnd before, true) ∧
        assigned raw = [.kept (Text.trimEnd before), .mark flag] := by
  by_cases flagged : Text.lowerAscii (raw.drop (raw.length - importantFlag.length)) = importantFlag
  · right
    have split : splitImportant raw =
        (Text.trimEnd (raw.take (raw.length - importantFlag.length)), true) := if_pos flagged
    refine ⟨_, _, (List.take_append_drop _ _).symm, flagged, split, ?_⟩
    rw [assigned, split, if_pos rfl]
  · left
    have split : splitImportant raw = (raw, false) := if_neg flagged
    refine ⟨split, ?_⟩
    rw [assigned, split, if_neg (by simp)]

section Splits

variable {p : Passage}

theorem splits_line_comment {body : List Char} (content : p.content = '/' :: '/' :: body)
    (kind : p.entry.kind = .comment (String.ofList (Text.trim body)) true) (alone : p.below = []) :
    p.Splits p.own := by
  have own : p.own = [.mark ['/', '/'], .kept body] := by rw [Passage.own, kind, content]; rfl
  rw [own]
  constructor
  · rw [← visible_content, content, alone]
    simp [Stretch.visible, visible, Text.isBlank]
  · rw [kind]
    simp [Stretch.told, Entry.Kind.visible, Text.visible_trim]
  · simp [IsMark]
  · simp
  · exact .inl alone

theorem splits_block_comment {opened body : List Char} (content : p.content = '/' :: '*' :: opened)
    (kind : p.entry.kind = .comment (String.ofList (Text.trim body)) false)
    (closed : beforeClose? (opened ++ p.below) = some body) : p.Splits p.own := by
  have own : p.own = [.mark ['/', '*'], .kept body, .mark ['*', '/'],
      .lost ((opened ++ p.below).drop (body.length + 2))] := by
    rw [Passage.own, kind, content]
    simp only [List.drop_succ_cons, List.drop_zero, closed]
  rw [own]
  constructor
  · have whole : p.content ++ p.below = '/' :: '*' ::
        (body ++ '*' :: '/' :: (opened ++ p.below).drop (body.length + 2)) := by
      rw [content, ← eq_of_beforeClose? closed]
      rfl
    rw [← visible_content, ← visible_append, whole]
    simp [Stretch.visible, visible, Text.isBlank]
  · rw [kind]
    simp [Stretch.told, Entry.Kind.visible, Text.visible_trim]
  · simp [IsMark]
  · have ends : (opened ++ p.below).drop (body.length + 2) <:+ p.content ++ p.below := by
      rw [content]
      exact (List.drop_suffix _ _).trans (List.suffix_append ['/', '*'] _)
    intro t mem
    simp only [List.mem_cons, reduceCtorEq, false_or, List.not_mem_nil, or_false,
      Stretch.lost.injEq] at mem
    rw [mem]
    exact ⟨⟨_, kind⟩, ends⟩
  · exact .inr ⟨_, kind⟩

theorem splits_atRule {rest : List Char} (content : p.content = '@' :: rest)
    (kind : p.entry.kind = .atRule (String.ofList (rest.takeWhile isNameChar))
      (String.ofList (Text.trim (rest.dropWhile isNameChar)))) (alone : p.below = []) :
    p.Splits p.own := by
  have own : p.own = [.mark ['@'], .kept rest] := by rw [Passage.own, kind, content]; rfl
  rw [own]
  constructor
  · rw [← visible_content, content, alone]
    simp [Stretch.visible, visible, Text.isBlank]
  · rw [kind]
    simp [Stretch.told, Entry.Kind.visible, Text.visible_trim, ← visible_append]
  · simp [IsMark]
  · simp
  · exact .inl alone

theorem splits_selector (kind : p.entry.kind = .selector (String.ofList p.content))
    (alone : p.below = []) : p.Splits p.own := by
  have own : p.own = [.kept p.content] := by rw [Passage.own, kind]
  rw [own]
  constructor
  · rw [← visible_content, alone]
    simp [Stretch.visible]
  · rw [kind]
    simp [Stretch.told, Entry.Kind.visible]
  · simp
  · simp
  · exact .inl alone

theorem splits_declaration {d : Declaration} {start : Position}
    (declares : declaration? p.content start = some d) (kind : p.entry.kind = .declaration d)
    (alone : p.below = []) : p.Splits p.own := by
  unfold declaration? at declares
  split at declares
  · cases declares
  next before after cut =>
    have own : p.own = .kept before :: .mark [':'] :: assigned (Text.trim after) := by
      rw [Passage.own, kind]
      simp only [cut]
    have content := eq_of_splitColon? cut
    have source : visible p.entry.raw ++ visible p.below =
        visible before ++ (visible [':'] ++ visible after) := by
      rw [← visible_content, content, alone, visible_append, visible_cons]
      simp
    simp only at declares
    split at declares
    · cases declares
    · cases declares
      rw [own]
      rcases assigned_cases (Text.trim after) with
        ⟨split, stretches⟩ | ⟨value, flag, raw, same, split, stretches⟩
      · rw [stretches]
        constructor
        · rw [source]
          simp [Stretch.visible, Text.visible_trim]
        · rw [kind, split]
          simp [Stretch.told, Entry.Kind.visible, Text.visible_trim]
        · simp [IsMark]
        · simp
        · exact .inl alone
      · rw [stretches]
        constructor
        · rw [source, ← Text.visible_trim after, raw]
          simp [Stretch.visible, Text.visible_trimEnd, visible_append]
        · rw [kind, split]
          simp [Stretch.told, Entry.Kind.visible, Text.visible_trim]
        · simp [IsMark, same]
        · simp
        · exact .inl alone

end Splits

theorem Passage.Of.splits {p : Passage} {line : Line} {rest : List Line} (h : p.Of line rest) :
    p.Splits p.own := by
  have read := h.kind
  rw [← h.origin.raw] at read
  change kindOf p.content _ _ = _ at read
  have alone (same : p.further ++ rest = rest) : p.below = [] := by
    have empty : p.further = [] := by simpa using same
    rw [Passage.below, empty, List.flatMap_nil]
  unfold kindOf at read
  split at read
  next body content =>
    obtain ⟨kind, same⟩ := Prod.mk.inj (Except.ok.inj read)
    exact splits_line_comment content kind.symm (alone same)
  next opened content =>
    split at read
    · cases read
    next body lines closed =>
      obtain ⟨kind, same⟩ := Prod.mk.inj (Except.ok.inj read)
      obtain ⟨further, split, found⟩ := beforeClose?_of_commentBody? closed
      rw [same] at split
      rw [← List.append_cancel_right split] at found
      exact splits_block_comment content kind.symm found
  next body content =>
    obtain ⟨kind, same⟩ := Prod.mk.inj (Except.ok.inj read)
    exact splits_atRule content kind.symm (alone same)
  next =>
    split at read
    next d declares =>
      obtain ⟨kind, same⟩ := Prod.mk.inj (Except.ok.inj read)
      exact splits_declaration declares kind.symm (alone same)
    next =>
      obtain ⟨kind, same⟩ := Prod.mk.inj (Except.ok.inj read)
      exact splits_selector kind.symm (alone same)

/-! ## All passages -/

section Stretches

variable {inner outer : List Passage}

theorem stretches_append {indent : Nat} {under : Option Nat}
    (deep : ∀ p ∈ inner, indent < p.entry.indent) (shallow : ∀ p ∈ outer.head?, p.entry.indent ≤ indent)
    (least : ∀ u ∈ under, indent ≤ u) :
    stretches under (inner ++ outer) = stretches under inner ++ stretches none outer := by
  induction inner generalizing under with
  | nil =>
    cases outer with
    | nil => rfl
    | cons p outer =>
      have above : ¬under.any (· < p.entry.indent) = true := by
        cases under with
        | none => nofun
        | some u => simpa using (shallow p rfl).trans (least u rfl)
      conv_lhs => rw [List.nil_append, stretches, if_neg above]
      rfl
  | cons p inner ih =>
    have deep' : ∀ q ∈ inner, indent < q.entry.indent := fun q mem => deep q (.tail _ mem)
    rw [List.cons_append, stretches, stretches]
    split
    · rw [ih deep' least]
      rfl
    · have least' : ∀ u ∈ p.entry.goesOn, indent ≤ u := by
        intro u mem
        rw [Entry.eq_of_mem_goesOn mem]
        exact (deep p List.mem_cons_self).le
      rw [ih deep' least', List.append_assoc]

theorem stretches_deeper {indent : Nat} (deep : ∀ p ∈ inner, indent < p.entry.indent) :
    stretches (some indent) inner =
      inner.flatMap fun p => [.kept p.entry.raw, .lost p.below] := by
  induction inner with
  | nil => rfl
  | cons p inner ih =>
    have here : (some indent).any (· < p.entry.indent) = true := by
      simpa using deep p List.mem_cons_self
    rw [stretches, if_pos here, ih fun q mem => deep q (.tail _ mem)]
    rfl

theorem visible_continued (d : Declaration) (inner : List Passage) :
    visible (continued d (inner.map Passage.entry)).value.toList = visible d.value.toList ++
      (inner.flatMap fun p => [.kept p.entry.raw, .lost p.below]).flatMap Stretch.told := by
  rw [toList_continued, visible_append, List.flatMap_map, List.flatMap_assoc]
  congr 1
  induction inner with
  | nil => rfl
  | cons p inner ih =>
    rw [List.flatMap_cons, List.flatMap_cons, visible_append, ih, Text.visible_newline,
      Text.visible_trimEnd]
    simp [Stretch.told]

end Stretches

theorem nodesOf_of_blockOf {depth : Nat} {start : Position} {inner : List Entry} {ns : List Node}
    (made : nodesOf.blockOf depth start inner = .ok ns) :
    ∃ below indent, nodesOf below indent inner = .ok ns := by
  cases inner with
  | nil =>
    rw [nodesOf.blockOf] at made
    exact ⟨0, 0, by rw [nodesOf, made]⟩
  | cons e inner =>
    cases depth with
    | zero =>
      rw [blockOf_zero] at made
      cases made
    | succ depth =>
      rw [blockOf_succ] at made
      exact ⟨depth, _, made⟩

theorem told_of_nodeOf {depth : Nat} {p : Passage} {inner : List Passage} {n : Node}
    (splits : p.Splits p.own) (deep : ∀ q ∈ inner, p.entry.indent < q.entry.indent)
    (made : nodeOf depth p.entry (inner.map Passage.entry) = .ok n)
    (within : ∀ {below indent ns}, nodesOf below indent (inner.map Passage.entry) = .ok ns →
      (Node.walkAll ns).flatMap Node.visible = (stretches none inner).flatMap Stretch.told) :
    n.walk.flatMap Node.visible =
      p.own.flatMap Stretch.told ++ (stretches p.entry.goesOn inner).flatMap Stretch.told := by
  have kept := splits.kept
  have block {prelude : Prelude} {start opener : Position} (closed : p.entry.goesOn = none)
      (shown : p.entry.kind.visible = prelude.strings.flatMap fun s => visible s.toList)
      (made : (nodesOf.blockOf depth p.entry.start (inner.map Passage.entry)).map
        (.block prelude start opener) = .ok n) :
      n.walk.flatMap Node.visible =
        p.own.flatMap Stretch.told ++ (stretches p.entry.goesOn inner).flatMap Stretch.told := by
    obtain ⟨ns, blocks, rfl⟩ := map_eq_ok_iff.1 made
    obtain ⟨below, indent, inside⟩ := nodesOf_of_blockOf blocks
    rw [Node.walk, List.flatMap_cons, within inside, closed, kept, shown]
    rfl
  unfold nodeOf at made
  split at made
  next text inline kind =>
    split at made
    next alone =>
      cases made
      rw [List.map_eq_nil_iff.1 alone, kept, kind]
      simp [Node.walk, Node.visible, Node.strings, Entry.Kind.visible, stretches]
    next => cases made
  next d kind =>
    cases made
    have open' : p.entry.goesOn = some p.entry.indent := by simp [Entry.goesOn, kind]
    have value := visible_continued d inner
    rw [kept, kind, open', stretches_deeper deep]
    simp only [Node.walk, Node.visible, Node.strings, Entry.Kind.visible, List.flatMap_cons,
      List.flatMap_nil, List.append_nil, value, List.append_assoc]
    rfl
  next text kind =>
    have closed : p.entry.goesOn = none := by simp [Entry.goesOn, kind]
    exact block closed (by simp [kind, Entry.Kind.visible, Prelude.strings]) made
  next name params kind =>
    have closed : p.entry.goesOn = none := by simp [Entry.goesOn, kind]
    have shown : p.entry.kind.visible =
        (Prelude.atRule name params).strings.flatMap fun s => visible s.toList := by
      simp [kind, Entry.Kind.visible, Prelude.strings]
    split at made
    next alone =>
      cases made
      rw [List.map_eq_nil_iff.1 (List.isEmpty_iff.1 alone), kept, shown]
      simp [Node.walk, Node.visible, Node.strings, stretches]
    next => exact block closed shown made

theorem exists_inner_outer (indent : Nat) (ps : List Passage) : ∃ inner outer, ps = inner ++ outer ∧
    (ps.map Passage.entry).takeWhile (indent < ·.indent) = inner.map Passage.entry ∧
    (ps.map Passage.entry).dropWhile (indent < ·.indent) = outer.map Passage.entry ∧
    (∀ p ∈ inner, indent < p.entry.indent) ∧ ∀ p ∈ outer.head?, p.entry.indent ≤ indent := by
  refine ⟨ps.takeWhile (indent < ·.entry.indent), ps.dropWhile (indent < ·.entry.indent),
    List.takeWhile_append_dropWhile.symm, List.takeWhile_map .., List.dropWhile_map .., ?_, ?_⟩
  · intro p mem
    simpa using List.mem_takeWhile_imp mem
  · intro p head
    have first := List.head?_dropWhile_not (fun p : Passage => decide (indent < p.entry.indent)) ps
    rw [Option.mem_def.1 head] at first
    simpa using first

theorem told_of_nodesOf {depth indent : Nat} {ps : List Passage} {ns : List Node}
    (splits : ∀ p ∈ ps, p.Splits p.own)
    (made : nodesOf depth indent (ps.map Passage.entry) = .ok ns) :
    (Node.walkAll ns).flatMap Node.visible = (stretches none ps).flatMap Stretch.told := by
  generalize same : ps.map Passage.entry = es at made
  -- The induction is that of the builder: the entries deeper than the first one, then those after them.
  induction es using entries_induction generalizing depth indent ps ns with
  | nil =>
    rw [nodesOf] at made
    cases made
    rw [List.map_eq_nil_iff.1 same]
    rfl
  | cons e rest within later =>
    obtain ⟨p, qs, rfl, rfl, rfl⟩ := List.map_eq_cons_iff.1 same
    by_cases level : p.entry.indent = indent
    · subst level
      rw [nodesOf_cons] at made
      obtain ⟨n, node, made⟩ := bind_eq_ok_iff.1 made
      obtain ⟨more, after, rfl⟩ := map_eq_ok_iff.1 made
      obtain ⟨inner, outer, rfl, taken, dropped, deep, shallow⟩ := exists_inner_outer p.entry.indent qs
      rw [taken] at node within
      rw [dropped] at after later
      simp only [List.forall_mem_cons, List.forall_mem_append] at splits
      have least : ∀ u ∈ p.entry.goesOn, p.entry.indent ≤ u :=
        fun u mem => (Entry.eq_of_mem_goesOn mem).ge
      have here := told_of_nodeOf splits.1 deep node fun made => within splits.2.1 rfl made
      have there := later splits.2.2 rfl after
      have first : stretches none (p :: (inner ++ outer)) =
          p.own ++ stretches p.entry.goesOn (inner ++ outer) := rfl
      rw [Node.walkAll, List.flatMap_append, here, there, first, stretches_append deep shallow least,
        List.flatMap_append, List.flatMap_append, List.append_assoc]
    · rw [nodesOf_misplaced level] at made
      cases made

theorem Covers.splits {lines : List Line} {ps : List Passage} (h : Covers lines ps) :
    ∀ p ∈ ps, p.Splits p.own := by
  induction h with
  | nil => nofun
  | blank blank more ih => exact ih
  | passage here more ih => exact List.forall_mem_cons.2 ⟨here.splits, ih⟩

theorem visible_stretches {ps : List Passage} (splits : ∀ p ∈ ps, p.Splits p.own)
    (under : Option Nat) : (stretches under ps).flatMap Stretch.visible =
      ps.flatMap fun p => visible p.entry.raw ++ visible p.below := by
  induction ps generalizing under with
  | nil => rfl
  | cons p ps ih =>
    have later := ih fun q mem => splits q (.tail _ mem)
    rw [stretches, List.flatMap_cons]
    split
    · rw [List.flatMap_cons, List.flatMap_cons, later, List.append_assoc]
      rfl
    · rw [List.flatMap_append, (splits p List.mem_cons_self).whole, later]

theorem mem_stretches {ps : List Passage} {under : Option Nat} {s : Stretch}
    (mem : s ∈ stretches under ps) :
    ∃ p ∈ ps, s ∈ p.own ∨ s = .kept p.entry.raw ∨ s = .lost p.below := by
  induction ps generalizing under with
  | nil => cases mem
  | cons p ps ih =>
    rw [stretches] at mem
    split at mem
    · rcases List.mem_cons.1 mem with same | mem
      · exact ⟨p, List.mem_cons_self, .inr (.inl same)⟩
      · rcases List.mem_cons.1 mem with same | mem
        · exact ⟨p, List.mem_cons_self, .inr (.inr same)⟩
        · obtain ⟨q, among, from'⟩ := ih mem
          exact ⟨q, .tail _ among, from'⟩
    · rcases List.mem_append.1 mem with mem | mem
      · exact ⟨p, List.mem_cons_self, .inl mem⟩
      · obtain ⟨q, among, from'⟩ := ih mem
        exact ⟨q, .tail _ among, from'⟩

theorem isMark_of_mem_stretches {ps : List Passage} (splits : ∀ p ∈ ps, p.Splits p.own) {m : List Char}
    (mem : .mark m ∈ stretches none ps) : IsMark m := by
  obtain ⟨p, among, own | other | other⟩ := mem_stretches mem
  · exact (splits p among).marks m own
  · cases other
  · cases other

theorem loses_of_mem_stretches {ps : List Passage} (splits : ∀ p ∈ ps, p.Splits p.own) {t : List Char}
    (mem : .lost t ∈ stretches none ps) : t = [] ∨ ∃ p ∈ ps, p.Loses t := by
  obtain ⟨p, among, own | other | further⟩ := mem_stretches mem
  · exact .inr ⟨p, among, (splits p among).lost t own⟩
  · cases other
  · cases further
    refine (splits p among).goes_on.imp id fun comment => ?_
    exact ⟨p, among, comment, List.suffix_append _ _⟩

/-- How the passages of a text account for what it says: what the tree keeps, it keeps in its strings in
the order of the source. Besides this there are marks and what is lost, which is always the end of the
lines of a comment. -/
structure Accounts (text : List Char) (sheet : Sheet) (ps : List Passage) : Prop where
  covers : Covers (linesOf text) ps
  whole : (stretches none ps).flatMap Stretch.visible = visible text
  told : (stretches none ps).flatMap Stretch.told = sheet.walk.flatMap Node.visible
  marks : ∀ m, .mark m ∈ stretches none ps → IsMark m
  lost : ∀ t, .lost t ∈ stretches none ps → t = [] ∨ ∃ p ∈ ps, p.Loses t

theorem parse_accounts {text : String} {sheet : Sheet}
    (parsed : Dialect.sugarss.parse text = .ok sheet) :
    ∃ ps, Accounts (Text.dropByteOrderMark text.toList) sheet ps := by
  obtain ⟨es, scanned, made⟩ := entries_of_parse parsed
  obtain ⟨ps, covers, rfl⟩ := exists_passages none _ es scanned
  refine ⟨ps, covers, ?_, (told_of_nodesOf covers.splits made).symm,
    fun m => isMark_of_mem_stretches covers.splits, fun t => loses_of_mem_stretches covers.splits⟩
  rw [visible_stretches covers.splits, ← covers.visible_eq, visible_linesOf]

theorem parse_accounts_block :
    Dialect.sugarss.parse "@b c\n a: d\n  e\n/*f*/" =
      .ok ⟨[.block (.atRule "b" "c") ⟨1, 1⟩ ⟨1, 1⟩
          [.declaration ⟨"a", "d\n  e", false, ⟨2, 2⟩, ⟨2, 5⟩⟩],
        .comment ⟨"f", ⟨4, 1⟩, false⟩]⟩ ∧
    ∃ ps, Accounts (Text.dropByteOrderMark "@b c\n a: d\n  e\n/*f*/".toList)
      ⟨[.block (.atRule "b" "c") ⟨1, 1⟩ ⟨1, 1⟩
          [.declaration ⟨"a", "d\n  e", false, ⟨2, 2⟩, ⟨2, 5⟩⟩],
        .comment ⟨"f", ⟨4, 1⟩, false⟩]⟩ ps := by
  have lines : linesOf (Text.dropByteOrderMark "@b c\n a: d\n  e\n/*f*/".toList) =
      [⟨1, ['@', 'b', ' ', 'c']⟩, ⟨2, [' ', 'a', ':', ' ', 'd']⟩, ⟨3, [' ', ' ', 'e']⟩,
        ⟨4, ['/', '*', 'f', '*', '/']⟩] := by
    decide
  have scanned : entries (Text.dropByteOrderMark "@b c\n a: d\n  e\n/*f*/".toList) = .ok
      [⟨0, ⟨1, 1⟩, ['@', 'b', ' ', 'c'], .atRule "b" "c"⟩,
        ⟨1, ⟨2, 2⟩, [' ', 'a', ':', ' ', 'd'], .declaration ⟨"a", "d", false, ⟨2, 2⟩, ⟨2, 5⟩⟩⟩,
        ⟨2, ⟨3, 3⟩, [' ', ' ', 'e'], .selector "e"⟩,
        ⟨0, ⟨4, 1⟩, ['/', '*', 'f', '*', '/'], .comment "f" false⟩] := by
    rw [entries, lines, entriesOf_cons rfl rfl rfl, entriesOf_cons rfl rfl rfl,
      entriesOf_cons rfl rfl rfl, entriesOf_cons rfl rfl rfl, entriesOf]
    rfl
  have parsed : Dialect.sugarss.parse "@b c\n a: d\n  e\n/*f*/" =
      .ok ⟨[.block (.atRule "b" "c") ⟨1, 1⟩ ⟨1, 1⟩
          [.declaration ⟨"a", "d\n  e", false, ⟨2, 2⟩, ⟨2, 5⟩⟩],
        .comment ⟨"f", ⟨4, 1⟩, false⟩]⟩ := by
    rw [parse_of_entries scanned]
    simp [nodesOf, nodesOf.blockOf, continued, Except.map, Sheet.maxNesting]
    decide
  exact ⟨parsed, parse_accounts parsed⟩

/-- The `b` behind this comment is lost, and so is the `d` in the second line of this one. -/
theorem parse_loses :
    (∃ sheet, Dialect.sugarss.parse "/*a*/b" = .ok sheet ∧ 'b' ∉ sheet.walk.flatMap Node.visible) ∧
    ∃ sheet, Dialect.sugarss.parse "a: b\n /*c\nd*/" = .ok sheet ∧
      'd' ∉ sheet.walk.flatMap Node.visible := by
  have behind : entries (Text.dropByteOrderMark "/*a*/b".toList) = .ok
      [⟨0, ⟨1, 1⟩, ['/', '*', 'a', '*', '/', 'b'], .comment "a" false⟩] := by
    have lines : linesOf (Text.dropByteOrderMark "/*a*/b".toList) =
        [⟨1, ['/', '*', 'a', '*', '/', 'b']⟩] := by decide
    rw [entries, lines, entriesOf_cons rfl rfl rfl, entriesOf]
    rfl
  have further : entries (Text.dropByteOrderMark "a: b\n /*c\nd*/".toList) = .ok
      [⟨0, ⟨1, 1⟩, ['a', ':', ' ', 'b'], .declaration ⟨"a", "b", false, ⟨1, 1⟩, ⟨1, 4⟩⟩⟩,
        ⟨1, ⟨2, 2⟩, [' ', '/', '*', 'c'], .comment "c\nd" false⟩] := by
    have lines : linesOf (Text.dropByteOrderMark "a: b\n /*c\nd*/".toList) =
        [⟨1, ['a', ':', ' ', 'b']⟩, ⟨2, [' ', '/', '*', 'c']⟩, ⟨3, ['d', '*', '/']⟩] := by decide
    rw [entries, lines, entriesOf_cons rfl rfl rfl, entriesOf_cons rfl rfl rfl, entriesOf]
    rfl
  refine ⟨⟨⟨[.comment ⟨"a", ⟨1, 1⟩, false⟩]⟩, ?_, by decide⟩,
    ⟨⟨[.declaration ⟨"a", "b\n /*c", false, ⟨1, 1⟩, ⟨1, 4⟩⟩]⟩, ?_, by decide⟩⟩
  · rw [parse_of_entries behind]
    simp [nodesOf, Except.map]
  · rw [parse_of_entries further]
    simp [nodesOf, continued, Except.map]
    decide

end Indented

end SheetLint
