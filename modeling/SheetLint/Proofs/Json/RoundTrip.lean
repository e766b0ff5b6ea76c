import Mathlib.Data.List.Nodup
import SheetLint.Json.Draft
import SheetLint.Json.Printer
import SheetLint.Proofs.Entries
import SheetLint.Proofs.Text.Trim

namespace SheetLint.Json

inductive Readable : Nat → Json → Prop
  | null {depth : Nat} : Readable depth .null
  | bool {depth : Nat} (b : Bool) : Readable depth (.bool b)
  | integer {depth : Nat} {n : Int} (fits : fitsBits 64 n = true) :
    Readable depth (.number (.integer n))
  | string {depth : Nat} (s : String) : Readable depth (.string s)
  | array {depth : Nat} {items : List Json} (all : ∀ j ∈ items, Readable (depth + 1) j) :
    Readable (depth + 2) (.array items)
  | object {depth : Nat} {members : List (String × Json)} (names : (members.map Prod.fst).Nodup)
    (all : ∀ m ∈ members, Readable (depth + 1) m.2) : Readable (depth + 2) (.object members)

namespace Token

/-! ## Tokens -/

theorem tokens?_nil : tokens? [] = some [] := by
  rw [tokens?, tokensOnto]
  rfl

theorem tokensOnto_space {before : List Token} {c : Char} (space : isSpace c = true)
    (rest : List Char) : tokensOnto before (c :: rest) = tokensOnto before rest := by
  rw [tokensOnto, if_pos space]

theorem tokensOnto_token {before : List Token} {c : Char} {rest rest' : List Char} {token : Token}
    (solid : isSpace c = false) (read : ofChar? c rest = some (token, rest')) :
    tokensOnto before (c :: rest) = tokensOnto (token :: before) rest' := by
  rw [tokensOnto, if_neg (by simp [solid])]
  split
  next refused => simp [read] at refused
  next taken =>
    rw [read] at taken
    cases taken
    rfl

theorem tokensOnto_eq (before : List Token) (cs : List Char) :
    tokensOnto before cs = (tokens? cs).map (before.reverse ++ ·) := by
  induction length : cs.length using Nat.strong_induction_on generalizing before cs with
  | _ n ih =>
    cases cs with
    | nil => simp [tokens?, tokensOnto]
    | cons c rest =>
      rw [List.length_cons] at length
      by_cases space : isSpace c = true
      · rw [tokensOnto_space space, tokens?, tokensOnto_space space]
        exact ih _ (by omega) before rest rfl
      · rw [Bool.not_eq_true] at space
        cases read : ofChar? c rest with
        | none =>
          rw [tokens?, tokensOnto, tokensOnto, if_neg (by simp [space]), if_neg (by simp [space])]
          split <;> simp_all
        | some r =>
          obtain ⟨token, rest'⟩ := r
          have shorter : rest'.length ≤ rest.length := ofChar?_length read
          rw [tokensOnto_token space read, tokens?, tokensOnto_token space read,
            ih _ (by omega) _ rest' rfl, ih _ (by omega) [token] rest' rfl, Option.map_map]
          congr 1
          funext ts
          simp

theorem tokens?_space {c : Char} (space : isSpace c = true) (rest : List Char) :
    tokens? (c :: rest) = tokens? rest :=
  tokensOnto_space space rest

theorem tokens?_token {c : Char} {rest rest' : List Char} {token : Token} (solid : isSpace c = false)
    (read : ofChar? c rest = some (token, rest')) :
    tokens? (c :: rest) = (tokens? rest').map (token :: ·) := by
  rw [tokens?, tokensOnto_token solid read, tokensOnto_eq]
  rfl

theorem tokens?_cons {c : Char} {rest rest' : List Char} {token : Token} {ts : List Token}
    (solid : isSpace c = false) (read : ofChar? c rest = some (token, rest'))
    (more : tokens? rest' = some ts) : tokens? (c :: rest) = some (token :: ts) := by
  rw [tokens?_token solid read, more]
  rfl

theorem tokens?_newline (level : Nat) (rest : List Char) :
    tokens? (newline level ++ rest) = tokens? rest := by
  have blanks (n : Nat) : tokens? (List.replicate n ' ' ++ rest) = tokens? rest := by
    induction n with
    | zero => rfl
    | succ n ih => rw [List.replicate_succ, List.cons_append, tokens?_space rfl, ih]
  rw [newline, List.cons_append, tokens?_space rfl, blanks]

/-! ## Strings -/

theorem hexValue?_digitChar : ∀ d < 16, hexValue? (Nat.digitChar d) = some d := by
  decide

theorem decodeUnits?_chars (text : List Char) (cs : List Char) :
    decodeUnits? text (cs.map .char) = some (cs.reverse ++ text) := by
  induction cs generalizing text with
  | nil => rfl
  | cons c cs ih => rw [List.map_cons, decodeUnits?, ih]; simp

theorem readString?_escape (units : List Unit) (c : Char) (rest : List Char) :
    readString? units (escape c ++ rest) = readString? (.char c :: units) rest := by
  unfold escape
  split_ifs with quote backslash newline return' tab backspace feed control
  · subst quote; rfl
  · subst backslash; rfl
  · subst newline; rfl
  · subst return'; rfl
  · subst tab; rfl
  · subst backspace; rfl
  · subst feed; rfl
  · have high := hexValue?_digitChar (c.toNat / 16) (by omega)
    have low := hexValue?_digitChar (c.toNat % 16) (by omega)
    have zero : hexValue? '0' = some 0 := by decide
    have value : ((0 * 16 + 0) * 16 + c.toNat / 16) * 16 + c.toNat % 16 = c.toNat := by omega
    have unit : Unit.ofNat c.toNat = .char c := by
      rw [Unit.ofNat, if_neg (by omega), if_neg (by omega), Char.ofNat_toNat]
    simp only [hexDigits, List.cons_append, List.nil_append]
    rw [readString?]
    simp only [readHex4?, high, low, zero, value, unit]
  · rw [List.cons_append, List.nil_append, readString?, if_neg (not_or.2 ⟨control, backslash⟩)]
    · exact quote
    · exact fun _ _ _ _ _ eq => absurd eq backslash
    · exact fun _ _ eq => absurd eq backslash

theorem readString?_quoted (units : List Unit) (cs rest : List Char) :
    readString? units (cs.flatMap escape ++ '"' :: rest) =
      some (.string ((decodeUnits? [] ((cs.reverse.map .char) ++ units)).map String.ofList), rest) := by
  induction cs generalizing units with
  | nil => rfl
  | cons c cs ih =>
    rw [List.flatMap_cons, List.append_assoc, readString?_escape, ih]
    simp

theorem tokens?_quote (s : String) (rest : List Char) :
    tokens? (quote s ++ rest) = (tokens? rest).map (.string (some s) :: ·) := by
  have read : ofChar? '"' (s.toList.flatMap escape ++ '"' :: rest) = some (.string (some s), rest) := by
    change readString? [] _ = _
    rw [readString?_quoted, List.append_nil, decodeUnits?_chars]
    simp
  rw [quote, List.cons_append, List.append_assoc, List.cons_append, List.nil_append]
  exact tokens?_token rfl read

/-! ## Numbers -/

def EndsNumber (rest : List Char) : Prop :=
  ∀ c ∈ rest.head?, c.isDigit = false ∧ c ≠ '.' ∧ c ≠ 'e' ∧ c ≠ 'E'

theorem eq_zero_of_head?_toDigits {n : Nat} (zero : (Nat.toDigits 10 n).head? = some '0') : n = 0 := by
  induction n using Nat.strong_induction_on with
  | _ n ih =>
    rw [Nat.toDigits_eq_if (by omega)] at zero
    split_ifs at zero with small
    · have digits : ∀ d < 10, Nat.digitChar d = '0' → d = 0 := by decide
      exact digits n small (Option.some.inj zero)
    · rw [List.head?_append_of_ne_nil _ Nat.toDigits_ne_nil] at zero
      have := ih (n / 10) (by omega) zero
      omega

theorem isDigit_of_mem_toDigits {n : Nat} : ∀ c ∈ Nat.toDigits 10 n, c.isDigit = true :=
  fun _ mem => Nat.isDigit_of_mem_toDigits (by omega) (by omega) mem

theorem digitsValue_toDigits (n : Nat) : digitsValue (Nat.toDigits 10 n) = n := by
  rw [digitsValue, ← Nat.ofDigitChars_eq_foldl, Nat.ofDigitChars_ten_toDigits]

theorem readExponent?_of_ends {rest : List Char} (ends : EndsNumber rest) :
    readExponent? rest = some (none, rest) := by
  cases rest with
  | nil => rfl
  | cons c rest =>
    obtain ⟨-, -, lower, upper⟩ := ends c rfl
    exact if_neg (by simp [lower, upper])

theorem readNumber?_toDigits (negative : Bool) (n : Nat) {rest : List Char} (ends : EndsNumber rest) :
    readNumber? negative (Nat.toDigits 10 n ++ rest) =
      some (.number (integerValue negative (Nat.toDigits 10 n)), rest) := by
  have all : ∀ c ∈ Nat.toDigits 10 n, c.isDigit = true := isDigit_of_mem_toDigits
  obtain ⟨whole, after⟩ := Text.span_eq all fun c first => (ends c first).1
  have canonical : ¬((Nat.toDigits 10 n).isEmpty ||
      (Nat.toDigits 10 n).head? == some '0' && (Nat.toDigits 10 n).length != 1) = true := by
    rw [Bool.or_eq_true, Bool.and_eq_true, beq_iff_eq, bne_iff_ne, List.isEmpty_iff]
    rintro (empty | ⟨zero, long⟩)
    · exact Nat.toDigits_ne_nil empty
    · rw [eq_zero_of_head?_toDigits zero] at long
      exact long rfl
  rw [readNumber?]
  simp only [whole, after, if_neg canonical]
  split
  next more point => exact absurd rfl (ends '.' rfl).2.1
  next => rw [readExponent?_of_ends ends]; rfl

theorem ofChar?_digit {c : Char} (digit : c.isDigit = true) (rest : List Char) :
    ofChar? c rest = readNumber? false (c :: rest) := by
  unfold ofChar?
  split <;> first | rfl | cases digit

theorem tokens?_integer {n : Int} (fits : fitsBits 64 n = true) {rest : List Char}
    (ends : EndsNumber rest) : tokens? ((Number.integer n).text ++ rest) =
      (tokens? rest).map (.number (some (.integer n)) :: ·) := by
  obtain ⟨d, ds, digits⟩ := List.exists_cons_of_ne_nil (Nat.toDigits_ne_nil (n := n.natAbs) (b := 10))
  have digit : d.isDigit = true := isDigit_of_mem_toDigits d (digits ▸ List.mem_cons_self)
  rw [Number.text]
  split_ifs with negative
  · have value : integerValue true (Nat.toDigits 10 n.natAbs) = some (.integer n) := by
      have abs : -(n.natAbs : Int) = n := by omega
      rw [integerValue, digitsValue_toDigits]
      simp only [if_true, if_neg (show ¬n.natAbs = 0 by omega), abs, fits]
    have read : ofChar? '-' (Nat.toDigits 10 n.natAbs ++ rest) =
        some (.number (some (.integer n)), rest) := by
      rw [← value]
      exact readNumber?_toDigits true n.natAbs ends
    exact tokens?_token rfl read
  · have value : integerValue false (Nat.toDigits 10 n.natAbs) = some (.integer n) := by
      have abs : (n.natAbs : Int) = n := by omega
      rw [integerValue, digitsValue_toDigits]
      simp only [Bool.false_eq_true, if_false, abs, fits, if_true]
    have read : ofChar? d (ds ++ rest) = some (.number (some (.integer n)), rest) := by
      rw [ofChar?_digit digit, ← List.cons_append, ← digits, readNumber?_toDigits false _ ends, value]
    have solid : isSpace d = false := by
      refine Bool.eq_false_iff.2 fun space => ?_
      simp only [isSpace, Bool.or_eq_true, beq_iff_eq] at space
      rcases space with ((rfl | rfl) | rfl) | rfl <;> cases digit
    rw [List.nil_append, digits, List.cons_append]
    exact tokens?_token solid read

end Token

/-! ## Values -/

open Token (tokens? tokens?_nil tokens?_token tokens?_newline tokens?_quote tokens?_integer EndsNumber)
open Draft (ofTokensFrom? Frame State)

/-- The way from a text over tokens and a draft to a value. -/
structure Reads (text : List Char) (ts : List Token) (d : Draft) (depth : Nat) (j : Json) :
    Prop where
  tokens : ∀ rest, EndsNumber rest → tokens? (text ++ rest) = (tokens? rest).map (ts ++ ·)
  draft : ∀ fresh stack us,
    ofTokensFrom? (.value fresh stack) (ts ++ us) = ofTokensFrom? (.put d stack) us
  value : d.settle? depth = some j

structure ReadsItems (text : List Char) (start : List Draft → List Frame → State)
    (ts : List Token) (ds : List Draft) (depth : Nat) (items : List Json) : Prop where
  tokens : ∀ rest, tokens? (text ++ rest) = (tokens? rest).map (ts ++ ·)
  draft : ∀ before stack us, ofTokensFrom? (start before stack) (ts ++ us) =
    ofTokensFrom? (.put (.array (before.reverse ++ ds)) stack) us
  value : Draft.settleItems? depth ds = some items

structure ReadsMembers (text : List Char)
    (start : List (Option String × Draft) → List Frame → State) (ts : List Token)
    (ds : List (Option String × Draft)) (depth : Nat) (members : List (String × Json)) : Prop where
  tokens : ∀ rest, tokens? (text ++ rest) = (tokens? rest).map (ts ++ ·)
  draft : ∀ before stack us, ofTokensFrom? (start before stack) (ts ++ us) =
    ofTokensFrom? (.put (.object (before.reverse ++ ds)) stack) us
  value : Draft.settleMembers? depth ds = some members

def Kept (depth : Nat) (j : Json) : Prop :=
  ∀ level, ∃ ts d, Reads (prettyAt level j) ts d depth j

/-! ## Arrays -/

section Arrays

variable {depth level : Nat} {j : Json} {items : List Json} {us : List Token} {ds : List Draft}

theorem endsNumber_prettyItems (level : Nat) (items : List Json) (rest : List Char) :
    EndsNumber (prettyItems level items ++ rest) := by
  intro c first
  cases items <;> cases first <;> decide

theorem ReadsItems.item (kept : Kept depth j)
    (further : ReadsItems (prettyItems level items)
      (fun before stack => .after (.array before :: stack)) us ds depth items) (fresh : Bool) :
    ∃ ts d, ReadsItems (newline (level + 1) ++ prettyAt (level + 1) j ++ prettyItems level items)
      (fun before stack => .value fresh (.array before :: stack)) ts (d :: ds) depth (j :: items) := by
  obtain ⟨ts, d, first⟩ := kept (level + 1)
  refine ⟨ts ++ us, d, fun rest => ?_, fun before stack vs => ?_, ?_⟩
  · rw [List.append_assoc, List.append_assoc, tokens?_newline,
      first.tokens _ (endsNumber_prettyItems level items rest), further.tokens, Option.map_map]
    congr 1
    funext vs
    exact (List.append_assoc ts us vs).symm
  · calc ofTokensFrom? (.value fresh (.array before :: stack)) (ts ++ us ++ vs)
        = ofTokensFrom? (.after (.array (d :: before) :: stack)) (us ++ vs) := by
          rw [List.append_assoc]
          exact first.draft ..
      _ = ofTokensFrom? (.put (.array ((d :: before).reverse ++ ds)) stack) vs := further.draft ..
      _ = ofTokensFrom? (.put (.array (before.reverse ++ d :: ds)) stack) vs := by
          rw [List.reverse_cons, List.append_assoc]
          rfl
  · rw [Draft.settleItems?, first.value, further.value]
    rfl

theorem readsItems (all : ∀ j ∈ items, Kept depth j) (level : Nat) :
    ∃ ts ds, ReadsItems (prettyItems level items)
      (fun before stack => .after (.array before :: stack)) ts ds depth items := by
  induction items with
  | nil =>
    refine ⟨[.closeArray], [], fun rest => ?_, fun before stack us => ?_, rfl⟩
    · rw [prettyItems, List.append_assoc, tokens?_newline]
      exact tokens?_token rfl rfl
    · rw [List.append_nil]
      rfl
  | cons j items ih =>
    obtain ⟨us, ds, further⟩ := ih fun j mem => all j (List.mem_cons_of_mem _ mem)
    obtain ⟨ts, d, reads⟩ := further.item (all j List.mem_cons_self) false
    refine ⟨.comma :: ts, d :: ds, fun rest => ?_, reads.draft, reads.value⟩
    rw [prettyItems, List.cons_append, tokens?_token rfl rfl, reads.tokens, Option.map_map]
    rfl

theorem Kept.array (all : ∀ j ∈ items, Kept (depth + 1) j) : Kept (depth + 2) (.array items) := by
  intro level
  cases items with
  | nil =>
    refine ⟨[.openArray, .closeArray], .array [], fun rest _ => ?_, fun _ _ _ => rfl, rfl⟩
    rw [prettyAt, List.cons_append, tokens?_token rfl rfl, List.cons_append, tokens?_token rfl rfl,
      Option.map_map]
    rfl
  | cons j items =>
    obtain ⟨us, ds, further⟩ := readsItems (fun j mem => all j (List.mem_cons_of_mem _ mem)) level
    obtain ⟨ts, d, reads⟩ := further.item (all j List.mem_cons_self) true
    refine ⟨.openArray :: ts, .array (d :: ds), fun rest _ => ?_, fun _ stack vs => ?_, ?_⟩
    · rw [prettyAt, List.cons_append, tokens?_token rfl rfl, reads.tokens, Option.map_map]
      rfl
    · exact reads.draft [] stack vs
    · rw [Draft.settle?, if_neg (by omega), Nat.add_sub_cancel (m := 1), reads.value]
      rfl

end Arrays

/-! ## Objects -/

section Objects

variable {depth level : Nat} {m : String × Json} {members : List (String × Json)} {us : List Token}
  {ds : List (Option String × Draft)}

theorem endsNumber_prettyMembers (level : Nat) (members : List (String × Json))
    (rest : List Char) : EndsNumber (prettyMembers level members ++ rest) := by
  intro c first
  cases members <;> cases first <;> decide

theorem ReadsMembers.member (kept : Kept depth m.2)
    (further : ∀ name, ReadsMembers (prettyMembers level members)
      (fun before stack => .after (.object before name :: stack)) us ds depth members) (fresh : Bool) :
    ∃ ts d, ReadsMembers (newline (level + 1) ++ quote m.1 ++ ':' :: ' ' :: prettyAt (level + 1) m.2
      ++ prettyMembers level members) (.key fresh) ts (d :: ds) depth (m :: members) := by
  obtain ⟨ts, d, first⟩ := kept (level + 1)
  refine ⟨.string (some m.1) :: .colon :: ts ++ us, (some m.1, d), fun rest => ?_,
    fun before stack vs => ?_, ?_⟩
  · simp only [List.cons_append, List.append_assoc]
    rw [tokens?_newline, tokens?_quote, tokens?_token rfl rfl, Token.tokens?_space rfl,
      first.tokens _ (endsNumber_prettyMembers level members rest), (further none).tokens]
    simp only [Option.map_map]
    congr 1
  · calc ofTokensFrom? (.key fresh before stack) (.string (some m.1) :: .colon :: ts ++ us ++ vs)
        = ofTokensFrom? (.value false (.object before (some m.1) :: stack)) (ts ++ (us ++ vs)) := by
          rw [List.append_assoc]
          rfl
      _ = ofTokensFrom? (.after (.object ((some m.1, d) :: before) (some m.1) :: stack)) (us ++ vs) :=
        first.draft ..
      _ = ofTokensFrom? (.put (.object (((some m.1, d) :: before).reverse ++ ds)) stack) vs :=
        (further _).draft ..
      _ = ofTokensFrom? (.put (.object (before.reverse ++ (some m.1, d) :: ds)) stack) vs := by
        rw [List.reverse_cons, List.append_assoc]
        rfl
  · rw [Draft.settleMembers?, first.value, (further none).value]
    rfl

theorem readsMembers (all : ∀ m ∈ members, Kept depth m.2) (level : Nat) :
    ∃ ts ds, ∀ name, ReadsMembers (prettyMembers level members)
      (fun before stack => .after (.object before name :: stack)) ts ds depth members := by
  induction members with
  | nil =>
    refine ⟨[.closeObject], [], fun name => ⟨fun rest => ?_, fun before stack us => ?_, rfl⟩⟩
    · rw [prettyMembers, List.append_assoc, tokens?_newline]
      exact tokens?_token rfl rfl
    · rw [List.append_nil]
      rfl
  | cons m members ih =>
    obtain ⟨us, ds, further⟩ := ih fun m mem => all m (List.mem_cons_of_mem _ mem)
    obtain ⟨ts, d, reads⟩ := ReadsMembers.member (all m List.mem_cons_self) further false
    refine ⟨.comma :: ts, d :: ds, fun name => ⟨fun rest => ?_, reads.draft, reads.value⟩⟩
    rw [prettyMembers, List.cons_append, tokens?_token rfl rfl, reads.tokens, Option.map_map]
    rfl

theorem Kept.object (names : (members.map Prod.fst).Nodup)
    (all : ∀ m ∈ members, Kept (depth + 1) m.2) : Kept (depth + 2) (.object members) := by
  intro level
  cases members with
  | nil =>
    refine ⟨[.openObject, .closeObject], .object [], fun rest _ => ?_, fun _ _ _ => rfl, rfl⟩
    rw [prettyAt, List.cons_append, tokens?_token rfl rfl, List.cons_append, tokens?_token rfl rfl,
      Option.map_map]
    rfl
  | cons m members =>
    obtain ⟨us, ds, further⟩ := readsMembers (fun m mem => all m (List.mem_cons_of_mem _ mem)) level
    obtain ⟨ts, d, reads⟩ := ReadsMembers.member (all m List.mem_cons_self) further true
    refine ⟨.openObject :: ts, .object (d :: ds), fun rest _ => ?_, fun _ stack vs => ?_, ?_⟩
    · rw [prettyAt, List.cons_append, tokens?_token rfl rfl, reads.tokens, Option.map_map]
      rfl
    · exact reads.draft [] stack vs
    · rw [Draft.settle?, if_neg (by omega), Nat.add_sub_cancel (m := 1), reads.value]
      exact congrArg (some ∘ Json.object) (Entries.foldl_insert [] names)

end Objects

/-! ## The round trip -/

theorem Readable.kept {depth : Nat} {j : Json} (readable : Readable depth j) : Kept depth j := by
  induction readable with
  | null =>
    exact fun _ => ⟨[.null], .null, fun _ _ => tokens?_token rfl rfl, fun _ _ _ => rfl, rfl⟩
  | bool b =>
    refine fun _ => ⟨[.bool b], .bool b, fun _ _ => ?_, fun _ _ _ => rfl, rfl⟩
    cases b <;> exact tokens?_token rfl rfl
  | integer fits =>
    exact fun _ => ⟨[.number (some (.integer _))], .number (some (.integer _)),
      fun _ ends => tokens?_integer fits ends, fun _ _ _ => rfl, rfl⟩
  | string s =>
    exact fun _ => ⟨[.string (some s)], .string (some s), fun rest _ => tokens?_quote s rest,
      fun _ _ _ => rfl, rfl⟩
  | array _ ih => exact .array ih
  | object names _ ih => exact .object names ih

theorem ofText?_pretty {j : Json} (readable : Readable maxDepth j) :
    ofText? (String.ofList j.pretty) = some j := by
  obtain ⟨ts, d, reads⟩ := readable.kept 0
  have tokens : tokens? j.pretty = some ts := by
    rw [← List.append_nil j.pretty, pretty, reads.tokens [] (by simp [EndsNumber]), tokens?_nil,
      Option.map_some, List.append_nil]
  have draft : Draft.ofTokens? ts = some d := by
    rw [Draft.ofTokens?, ← List.append_nil ts, reads.draft]
    rfl
  rw [ofText?, String.toList_ofList, Draft.ofChars?, tokens, Option.bind_some, draft, Option.bind_some]
  exact reads.value

end SheetLint.Json
