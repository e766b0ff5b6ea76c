import SheetLint.Proofs.Brace.Classification
import SheetLint.Proofs.Brace.Returns

namespace SheetLint

/-! ## Characters of words -/

namespace Text

def blanks : List Nat :=
  [9, 10, 11, 12, 13, 0x20, 0x85, 0xA0, 0x1680, 0x2000, 0x2001, 0x2002, 0x2003, 0x2004, 0x2005, 0x2006,
    0x2007, 0x2008, 0x2009, 0x200A, 0x2028, 0x2029, 0x202F, 0x205F, 0x3000]

theorem toNat_mem_blanks {c : Char} (blank : isBlank c = true) : c.toNat ∈ blanks := by
  simp only [isBlank, Bool.or_eq_true, Bool.and_eq_true, decide_eq_true_eq, beq_iff_eq] at blank
  simp only [blanks, List.mem_cons, List.not_mem_nil]
  omega

theorem not_isAlphanumeric_of_isBlank {c : Char} (blank : isBlank c = true) :
    isAlphanumeric c = false := by
  have checked : ∀ n ∈ blanks, isAlphanumeric (Char.ofNat n) = false := by decide +kernel
  rw [← Char.ofNat_toNat c]
  exact checked _ (toNat_mem_blanks blank)

end Text

namespace Brace

open Scan

def isVariableChar (c : Char) : Bool :=
  Text.isAlphanumeric c || c == '-' || c == '_'

theorem not_isBlank_of_isVariableChar {c : Char} (h : isVariableChar c = true) :
    Text.isBlank c = false := by
  by_contra blank
  have blank : Text.isBlank c = true := by simpa using blank
  simp only [isVariableChar, Text.not_isAlphanumeric_of_isBlank blank, Bool.false_or, Bool.or_eq_true,
    beq_iff_eq] at h
  rcases h with rfl | rfl
  · revert blank
    decide
  · revert blank
    decide

/-! ## Fragments -/

inductive Fragment where
  | word (chars : List Char)
  | interpolation (name : List Char)
deriving DecidableEq, Repr

namespace Fragment

def chars : Fragment → List Char
  | .word chars => chars
  | .interpolation name => '@' :: '{' :: name ++ ['}']

def WellFormed : Fragment → Prop
  | .word chars => ∀ c ∈ chars, isVariableChar c = true
  | .interpolation name => '}' ∉ name ∧ ':' ∉ name

def IsWord : Fragment → Prop
  | .word _ => True
  | .interpolation _ => False

end Fragment

def property (fragments : List Fragment) : List Char :=
  fragments.flatMap Fragment.chars

theorem property_interpolation (name : List Char) (more : List Fragment) :
    property (.interpolation name :: more) = ('@' :: '{' :: name) ++ '}' :: property more := by
  rw [property, List.flatMap_cons, Fragment.chars, List.append_assoc]
  rfl

/-- Whether a text gives a value to the property that is named by an interpolation and some more
fragments. -/
structure SetsInterpolated (name : List Char) (more : List Fragment) (value text : List Char) :
    Prop where
  wellFormed : ∀ f ∈ .interpolation name :: more, f.WellFormed
  written : ∃ blanks, (∀ c ∈ blanks, Text.isBlank c = true) ∧
    text = (property (.interpolation name :: more) ++ blanks) ++ ':' :: value

/-- Whether a node is what such a text is read as: a declaration of the property if its first
interpolation is its only one, and otherwise an at-rule without a name. -/
def ReadAs (name : List Char) (more : List Fragment) (value text : List Char) : Node → Prop
  | .declaration d => (∀ f ∈ more, f.IsWord) ∧
      d.prop.toList = property (.interpolation name :: more) ∧
      (d.value.toList, d.important) = splitImportant (Text.trim value)
  | .statement (.atRule rule params) _ =>
    (∃ f ∈ more, ¬f.IsWord) ∧ rule = "" ∧ params.toList = Text.trim text.tail
  | _ => False

def Interpolated (name : List Char) (more : List Fragment) (value : List Char) : Item → Node → Prop
  | .statement text _, n => SetsInterpolated name more value (Cell.chars text) →
    ReadAs name more value (Cell.chars text) n
  | _, _ => True

theorem interpolated_bare {name value : List Char} {more : List Fragment} {i : Item} {n : Node} :
    Interpolated name more value i n.bare ↔ Interpolated name more value i n := by
  cases i <;> cases n <;> rfl

/-! ## Reading a property -/

theorem colon_not_mem_property {fragments : List Fragment} (wellFormed : ∀ f ∈ fragments, f.WellFormed) :
    ':' ∉ property fragments := by
  intro mem
  obtain ⟨f, among, mem⟩ := List.mem_flatMap.1 mem
  have wellFormed := wellFormed f among
  cases f with
  | word chars => exact absurd (wellFormed _ mem) (by decide)
  | interpolation name => simp [Fragment.chars, wellFormed.2] at mem

theorem visible_of_mem_property {fragments : List Fragment}
    (wellFormed : ∀ f ∈ fragments, f.WellFormed) (words : ∀ f ∈ fragments, f.IsWord) :
    ∀ c ∈ property fragments, Text.isBlank c = false := by
  intro c mem
  obtain ⟨f, among, mem⟩ := List.mem_flatMap.1 mem
  have wellFormed := wellFormed f among
  cases f with
  | word chars => exact not_isBlank_of_isVariableChar (wellFormed c mem)
  | interpolation name => exact (words _ among).elim

theorem trim_property {name blanks : List Char} {more : List Fragment}
    (wellFormed : ∀ f ∈ more, f.WellFormed) (words : ∀ f ∈ more, f.IsWord)
    (blank : ∀ c ∈ blanks, Text.isBlank c = true) :
    Text.trim (property (.interpolation name :: more) ++ blanks) =
      property (.interpolation name :: more) := by
  have ended : Text.dropEndWhile Text.isBlank (property more ++ blanks) = property more :=
    Text.dropEndWhile_append_of_pos (visible_of_mem_property wellFormed words) blank
  have starts : ('@' :: '{' :: name).dropWhile Text.isBlank = '@' :: '{' :: name := rfl
  rw [property_interpolation, List.append_assoc, List.cons_append (a := '}'), Text.trim,
    Text.trimWhile_append_cons (by decide), ended, starts]

theorem exists_split_of_chars {cells : List Cell} {before after : List Char} {c : Char}
    (written : Cell.chars cells = before ++ c :: after) :
    ∃ front cell back, cells = front ++ cell :: back ∧ Cell.chars front = before ∧ cell.char = c ∧
      Cell.chars back = after := by
  obtain ⟨front, tail, split, taken, left⟩ := List.map_eq_append_iff.1 written
  obtain ⟨cell, back, rfl, char, more⟩ := List.map_eq_cons_iff.1 left
  exact ⟨front, cell, back, split, taken, char, more⟩

theorem startsWith_chars (c : Char) (cells : List Cell) :
    startsWith c cells = true ↔ (Cell.chars cells).head? = some c := by
  cases cells <;> simp [startsWith, Cell.chars]

theorem colonFollows_iff {cells : List Cell} : colonFollows cells = true ↔
    ((Cell.chars cells).dropWhile Text.isBlank).head? = some ':' := by
  rw [colonFollows, startsWith_chars, Cell.chars, Cell.chars, List.dropWhile_map]
  rfl

theorem isVariableText_iff {rest : List Cell} {name after : List Char}
    (written : Cell.chars rest = '{' :: name ++ '}' :: after) (inside : '}' ∉ name) :
    isVariableText rest = true ↔
      ((after.dropWhile isVariableChar).dropWhile Text.isBlank).head? = some ':' := by
  have begins : startsWith '{' rest = true := by
    rw [startsWith_chars, written]
    rfl
  obtain ⟨front, closing, back, rfl, taken, char, rfl⟩ := exists_split_of_chars written
  have dropped : (front ++ closing :: back).dropWhile (·.char != '}') = closing :: back := by
    have before : '}' ∉ Cell.chars front := by
      rw [taken]
      exact List.not_mem_cons_of_ne_of_not_mem (by decide) inside
    rw [List.dropWhile_append_of_pos, List.dropWhile_cons_of_neg (by simp [char])]
    intro c mem
    rw [bne_iff_ne]
    exact fun same => before (same ▸ List.mem_map_of_mem mem)
  rw [isVariableText, if_pos begins, dropped, colonFollows_iff]
  simp only [Cell.chars, List.dropWhile_map]
  rfl

theorem head?_property {more : List Fragment} (wellFormed : ∀ f ∈ more, f.WellFormed)
    {blanks : List Char} (blank : ∀ c ∈ blanks, Text.isBlank c = true) (value : List Char) :
    (((property more ++ (blanks ++ ':' :: value)).dropWhile isVariableChar).dropWhile
      Text.isBlank).head? = some ':' ↔ ∀ f ∈ more, f.IsWord := by
  induction more with
  | nil =>
    have stays : (blanks ++ ':' :: value).dropWhile isVariableChar = blanks ++ ':' :: value := by
      cases blanks with
      | nil => rfl
      | cons b blanks =>
        apply List.dropWhile_cons_of_neg
        intro word
        have := not_isBlank_of_isVariableChar word
        simp [blank b List.mem_cons_self] at this
    rw [property, List.flatMap_nil, List.nil_append, stays, List.dropWhile_append_of_pos blank]
    exact iff_of_true rfl (List.forall_mem_nil _)
  | cons f more ih =>
    obtain ⟨first, later⟩ := List.forall_mem_cons.1 wellFormed
    rw [List.forall_mem_cons, property, List.flatMap_cons, List.append_assoc]
    cases f with
    | word chars =>
      rw [Fragment.chars, List.dropWhile_append_of_pos first]
      exact (ih later).trans ⟨fun words => ⟨trivial, words⟩, fun words => words.2⟩
    | interpolation name =>
      apply iff_of_false
      · intro colon
        cases colon
      · exact fun words => words.1

theorem declarationOf_chars {first : Cell} {rest : List Cell} {before value : List Char}
    (written : Cell.chars (first :: rest) = before ++ ':' :: value) (bare : ':' ∉ before) :
    (declarationOf first rest).prop.toList = Text.trim before ∧
      ((declarationOf first rest).value.toList, (declarationOf first rest).important) =
        splitImportant (Text.trim value) := by
  obtain ⟨front, colon, back, split, rfl, char, rfl⟩ := exists_split_of_chars written
  obtain ⟨prop, value⟩ := declarationOf_eq split char fun c mem same =>
    bare (same ▸ List.mem_map_of_mem mem)
  constructor
  · rw [prop, toList_text, Text.chars_trimWhile]
  · rw [← Text.chars_trimWhile, ← value, declarationOf, String.toList_ofList]
    rfl

namespace SetsInterpolated

variable {name value text : List Char} {more : List Fragment} {c : Cell} {rest : List Cell}

theorem trim (h : SetsInterpolated name more value text) :
    SetsInterpolated name more (Text.trimEnd value) (Text.trim text) := by
  obtain ⟨blanks, blank, rfl⟩ := h.written
  refine ⟨h.wellFormed, blanks, blank, ?_⟩
  have starts : (property (.interpolation name :: more) ++ blanks).dropWhile Text.isBlank =
      property (.interpolation name :: more) ++ blanks := rfl
  rw [Text.trim, Text.trimWhile_append_cons (by decide), starts]
  rfl

theorem eq_cons (h : SetsInterpolated name more value text) :
    ∃ blanks, (∀ c ∈ blanks, Text.isBlank c = true) ∧
      text = '@' :: '{' :: (name ++ '}' :: (property more ++ (blanks ++ ':' :: value))) := by
  obtain ⟨blanks, blank, written⟩ := h.written
  refine ⟨blanks, blank, ?_⟩
  rw [written, property_interpolation]
  simp

theorem isVariableText_iff (h : SetsInterpolated name more value (Cell.chars (c :: rest))) :
    isVariableText rest = true ↔ ∀ f ∈ more, f.IsWord := by
  obtain ⟨closed, later⟩ := List.forall_mem_cons.1 h.wellFormed
  obtain ⟨blanks, blank, written⟩ := h.eq_cons
  rw [Brace.isVariableText_iff (List.cons.inj written).2 closed.1]
  exact head?_property later blank value

theorem declarationOf_eq (h : SetsInterpolated name more value (Cell.chars (c :: rest)))
    (words : ∀ f ∈ more, f.IsWord) :
    (declarationOf c rest).prop.toList = property (.interpolation name :: more) ∧
      ((declarationOf c rest).value.toList, (declarationOf c rest).important) =
        splitImportant (Text.trim value) := by
  obtain ⟨blanks, blank, written⟩ := h.written
  have bare : ':' ∉ property (.interpolation name :: more) ++ blanks := by
    rw [List.mem_append, not_or]
    refine ⟨colon_not_mem_property h.wellFormed, fun mem => ?_⟩
    exact absurd (blank _ mem) (by decide)
  obtain ⟨prop, said⟩ := declarationOf_chars written bare
  have later := (List.forall_mem_cons.1 h.wellFormed).2
  exact ⟨prop.trans (trim_property later words blank), said⟩

theorem atRulePrelude_eq (h : SetsInterpolated name more value (Cell.chars (c :: rest))) :
    atRulePrelude rest = .atRule "" (Cell.text (Text.trimWhile Cell.isBlank rest)) := by
  obtain ⟨blanks, -, written⟩ := h.eq_cons
  obtain ⟨brace, inner, rfl, char, -⟩ := List.map_eq_cons_iff.1 (List.cons.inj written).2
  have ends : ¬isNameCell brace = true := by simp [isNameCell, char]
  rw [atRulePrelude, List.takeWhile_cons_of_neg ends, List.dropWhile_cons_of_neg ends]
  rfl

end SetsInterpolated

theorem trim_tail {cs : List Char} {c : Char} (visible : Text.isBlank c = false) :
    Text.trim (Text.trim (c :: cs)).tail = Text.trim cs := by
  have kept : Text.trim (c :: cs) = c :: Text.dropEndWhile Text.isBlank cs := by
    rw [Text.trim, Text.trimWhile_cons visible]
    exact Text.dropEndWhile_append_cons visible [] cs
  rw [kept]
  exact Text.trimWhile_dropEndWhile cs

theorem nodeOf_interpolated {cells : List Cell} {name value : List Char} {more : List Fragment}
    (h : SetsInterpolated name more value (Cell.chars cells)) :
    ∃ n, nodeOf .less (Text.trimWhile Cell.isBlank cells) = .ok (some n) ∧
      ReadAs name more value (Cell.chars cells) n := by
  obtain ⟨_, -, starts⟩ := h.eq_cons
  have trimmed := h.trim
  rw [← Text.chars_trimWhile] at trimmed
  obtain ⟨_, -, written⟩ := trimmed.eq_cons
  obtain ⟨c, rest, split, char, -⟩ := List.map_eq_cons_iff.1 written
  have tail : (Text.trim (Cell.chars cells)).tail = Cell.chars rest := by
    rw [← Text.chars_trimWhile, split]
    rfl
  rw [split] at trimmed ⊢
  rw [nodeOf, if_pos char]
  by_cases words : ∀ f ∈ more, f.IsWord
  · rw [if_pos (by rw [trimmed.isVariableText_iff.2 words]; rfl)]
    obtain ⟨prop, said⟩ := trimmed.declarationOf_eq words
    refine ⟨_, rfl, words, prop, ?_⟩
    rw [said, Text.trim, Text.trimEnd, Text.trimWhile_dropEndWhile]
    rfl
  · rw [if_neg (by simp [mt trimmed.isVariableText_iff.1 words])]
    refine ⟨_, rfl, ?_⟩
    rw [trimmed.atRulePrelude_eq]
    refine ⟨by simpa using words, rfl, ?_⟩
    rw [toList_text, Text.chars_trimWhile, ← tail, starts, trim_tail (by decide)]
    rfl

theorem begins_interpolated {name value : List Char} {more : List Fragment} {i : Item} {p : Piece}
    (reads : i.Reads p) (known : ∀ text ending, .statement text ending = i → IsStatement .less text) :
    List.Forall₂ (Interpolated name more value) ([i].filter (!·.isClosing)) (p.begins .less) := by
  cases i with
  | comment slash inline =>
    obtain ⟨c, rfl, -⟩ := reads.eq_comment
    exact .cons trivial .nil
  | statement text ending =>
    obtain ⟨begun, rfl⟩ := reads.eq_statement
    obtain ⟨n, node⟩ := exists_nodeOf begun (known text ending rfl)
    simp only [Piece.begins, node]
    refine .cons ?_ .nil
    intro h
    obtain ⟨m, node', read⟩ := nodeOf_interpolated h
    cases node.symm.trans node'
    exact read
  | opening text brace =>
    rw [reads.eq_opening.2]
    exact .cons trivial .nil
  | closing brace =>
    rw [reads.eq_closing]
    exact .nil

/-- In less, a statement that begins with an interpolation and gives a value to the property of this name
is never refused: it is a declaration of exactly that property if the name has no other interpolation,
and otherwise an at-rule without a name. -/
theorem parse_interpolated (name : List Char) (more : List Fragment) (value : List Char) :
    (∀ cells, SetsInterpolated name more value (Cell.chars cells) →
      ∃ n, nodeOf .less (Text.trimWhile Cell.isBlank cells) = .ok (some n) ∧
        ReadAs name more value (Cell.chars cells) n) ∧
    ∀ text sheet, Dialect.less.parse text = .ok sheet →
      ∃ is, Scan.items .less (Text.dropByteOrderMark text.toList) = some is ∧
        List.Forall₂ (Interpolated name more value) (is.filter (!·.isClosing)) sheet.walk := by
  refine ⟨fun cells => nodeOf_interpolated, ?_⟩
  intro text sheet parsed
  obtain ⟨is, ps, found, reads, walk, known⟩ :=
    reads_of_parse (rfl : Dialect.less.flavor? = some .less) parsed
  have interpolated : List.Forall₂ (Interpolated name more value) (is.filter (!·.isClosing))
      (ps.flatMap (Piece.begins .less)) := by
    apply forall₂_begins reads
    intro i mem p read
    apply begins_interpolated read
    rintro text ending rfl
    exact known text ending mem
  rw [← walk, List.forall₂_map_right_iff] at interpolated
  simp only [interpolated_bare] at interpolated
  exact ⟨is, found, interpolated⟩

example : nodeOf .less (Cell.ofChars .start "@\x7ba\x7d-b:c".toList) =
    .ok (some (.declaration ⟨"@\x7ba\x7d-b", "c", false, ⟨1, 1⟩, ⟨1, 8⟩⟩)) := by
  rfl

theorem parse_two_interpolations :
    SetsInterpolated ['a'] [.interpolation ['b']] ['c'] "@\x7ba\x7d@\x7bb\x7d:c".toList ∧
    Dialect.less.parse "@\x7ba\x7d@\x7bb\x7d:c" =
      .ok ⟨[.statement (.atRule "" "\x7ba\x7d@\x7bb\x7d:c") ⟨1, 1⟩]⟩ := by
  have read : readStatement .less 0 [] (Cell.ofChars .start "@\x7ba\x7d@\x7bb\x7d:c".toList) =
      .ok ((Cell.ofChars .start "@\x7ba\x7d@\x7bb\x7d:c".toList).reverse, []) := by
    simp [readStatement_cons, readStatement.eq_1, readInterpolation, Flavor.less, startsWith]
  refine ⟨⟨by simp [Fragment.WellFormed], [], List.forall_mem_nil _, rfl⟩, ?_⟩
  exact parse_of_statement rfl rfl (by decide) read rfl

end Brace

end SheetLint
