import SheetLint.Json

/-!
The tokens of JSON texts. A number or a string can be well written and still have no value: a
number that is too great, or a string with half of a surrogate pair. Such a token holds `none`.
-/

namespace SheetLint.Json

inductive Token where
  | openArray
  | closeArray
  | openObject
  | closeObject
  | comma
  | colon
  | null
  | bool (b : Bool)
  | number (n : Option Number)
  | string (s : Option String)
deriving Repr

namespace Token

def isSpace (c : Char) : Bool :=
  c == ' ' || c == '\n' || c == '\t' || c == '\r'

def digitsValue (ds : List Char) : Nat :=
  ds.foldl (fun n d => 10 * n + (d.toNat - '0'.toNat)) 0

/-- The longest start of a row of digits whose value fits 64 bits, as its value, and the number of
digits left over. -/
def significand (start : Nat) : List Char → Nat × Nat
  | [] => (start, 0)
  | d :: ds =>
    let next := 10 * start + (d.toNat - '0'.toNat)
    if fitsBits 64 next then significand next ds else (start, ds.length + 1)

/-- Multiplies a number by a power of ten, both already rounded. Below the smallest power of ten
the division goes in steps. -/
def timesPowerOfTen (x : Binary64) (exponent : Int) : Nat → Option Binary64
  | 0 => some (.zero x.negative)
  | steps + 1 =>
    let power (n : Nat) := (Binary64.ofRatio? false (Nat.pow 10 n) 1).getD (.zero false)
    if exponent.natAbs ≤ 308 then
      if 0 ≤ exponent then x.mul? (power exponent.natAbs) else x.div? (power exponent.natAbs)
    else if x.mantissa = 0 then some x
    else if 0 < exponent then none
    else
      match x.div? (power 308) with
      | none => none
      | some y => timesPowerOfTen y (exponent + 308) steps

/-- The value of a number with a fraction or an exponent, or too great for an integer. Digits of
the significand that do not fit 64 bits are dropped; before the point each counts as a zero. -/
def floatValue (negative : Bool) (whole fraction : List Char) (exponent : Option (Bool × List Char)) :
    Option Number :=
  let (n, dropped) := significand 0 whole
  let (n, left) := significand n fraction
  let shift : Int := dropped - ((fraction.length - left : Nat) : Int)
  let exponent : Int × Bool :=
    match exponent with
    | none => (0, false)
    | some (below, ds) =>
      let e : Nat := digitsValue ds
      (if below then -(e : Int) else e, decide (Nat.pow 2 31 ≤ e))
  if exponent.2 then
    if n ≠ 0 ∧ 0 < exponent.1 then none else some (.float (.zero negative))
  else
    match Binary64.ofRatio? negative n 1 with
    | none => none
    | some x => (timesPowerOfTen x (shift + exponent.1) 8).map .float

def integerValue (negative : Bool) (whole : List Char) : Option Number :=
  let n := digitsValue whole
  if negative then
    if n = 0 then some (.float (.zero true))
    else if fitsBits 64 (-n) then some (.integer (-n))
    else floatValue true whole [] none
  else if fitsBits 64 n then some (.integer n)
  else floatValue false whole [] none

/-- The exponent of a number: its sign, its digits and what follows. Without a mark there is none;
after a mark there must be digits. -/
def readExponent? (cs : List Char) : Option (Option (Bool × List Char) × List Char) :=
  match cs with
  | [] => some (none, [])
  | c :: rest =>
    if c = 'e' ∨ c = 'E' then
      let (below, ds) :=
        match rest with
        | '-' :: ds => (true, ds)
        | '+' :: ds => (false, ds)
        | ds => (false, ds)
      let exponent := ds.takeWhile Char.isDigit
      if exponent.isEmpty then none else some (some (below, exponent), ds.dropWhile Char.isDigit)
    else some (none, c :: rest)

/-- Reads a number, whose sign has been read. There are no needless zeros in front, and a point is
followed by a digit. -/
def readNumber? (negative : Bool) (cs : List Char) : Option (Token × List Char) :=
  let whole := cs.takeWhile Char.isDigit
  let rest := cs.dropWhile Char.isDigit
  if whole.isEmpty || (whole.head? == some '0' && whole.length != 1) then none
  else
    match rest with
    | '.' :: more =>
      let fraction := more.takeWhile Char.isDigit
      if fraction.isEmpty then none
      else
        (readExponent? (more.dropWhile Char.isDigit)).map fun r =>
          (.number (floatValue negative whole fraction r.1), r.2)
    | _ =>
      (readExponent? rest).map fun r =>
        match r.1 with
        | none => (.number (integerValue negative whole), r.2)
        | some e => (.number (floatValue negative whole [] (some e)), r.2)

def hexValue? (c : Char) : Option Nat :=
  if c.isDigit then some (c.toNat - '0'.toNat)
  else if 'a' ≤ c ∧ c ≤ 'f' then some (c.toNat - 'a'.toNat + 10)
  else if 'A' ≤ c ∧ c ≤ 'F' then some (c.toNat - 'A'.toNat + 10)
  else none

def readHex4? : List Char → Option (Nat × List Char)
  | a :: b :: c :: d :: rest =>
    match hexValue? a, hexValue? b, hexValue? c, hexValue? d with
    | some a, some b, some c, some d => some (((a * 16 + b) * 16 + c) * 16 + d, rest)
    | _, _, _, _ => none
  | _ => none

/-- A member of a string: a character, or one half of a surrogate pair. -/
inductive Unit where
  | char (c : Char)
  | high (n : Nat)
  | low (n : Nat)

def Unit.ofNat (n : Nat) : Unit :=
  if 0xD800 ≤ n ∧ n < 0xDC00 then .high n
  else if 0xDC00 ≤ n ∧ n < 0xE000 then .low n
  else .char (Char.ofNat n)

/-- Puts the characters of a row of units, which is given last first, in front of a text. Every
half of a pair must have its other half. -/
def decodeUnits? (text : List Char) : List Unit → Option (List Char)
  | [] => some text
  | .char c :: us => decodeUnits? (c :: text) us
  | .low l :: .high h :: us =>
    decodeUnits? (Char.ofNat (0x10000 + (h - 0xD800) * 0x400 + (l - 0xDC00)) :: text) us
  | _ => none

def simpleEscape? (c : Char) : Option Char :=
  match c with
  | '"' => some '"'
  | '\\' => some '\\'
  | '/' => some '/'
  | 'b' => some '\x08'
  | 'f' => some '\x0c'
  | 'n' => some '\n'
  | 'r' => some '\r'
  | 't' => some '\t'
  | _ => none

/-- Reads a string up to its closing quote; `units` holds what was read so far, last first. -/
def readString? (units : List Unit) : List Char → Option (Token × List Char)
  | [] => none
  | '"' :: rest => some (.string ((decodeUnits? [] units).map String.ofList), rest)
  | '\\' :: 'u' :: a :: b :: c :: d :: rest =>
    match readHex4? [a, b, c, d] with
    | some (n, _) => readString? (Unit.ofNat n :: units) rest
    | none => none
  | '\\' :: c :: rest =>
    match simpleEscape? c with
    | some e => readString? (.char e :: units) rest
    | none => none
  | c :: rest => if c.toNat < 0x20 ∨ c = '\\' then none else readString? (.char c :: units) rest

def after? (letters cs : List Char) : Option (List Char) :=
  if letters.isPrefixOf cs then some (cs.drop letters.length) else none

def readWord? (letters : String) (token : Token) (cs : List Char) : Option (Token × List Char) :=
  (after? letters.toList cs).map fun rest => (token, rest)

def ofChar? (c : Char) (rest : List Char) : Option (Token × List Char) :=
  match c with
  | '[' => some (.openArray, rest)
  | ']' => some (.closeArray, rest)
  | '{' => some (.openObject, rest)
  | '}' => some (.closeObject, rest)
  | ',' => some (.comma, rest)
  | ':' => some (.colon, rest)
  | '"' => readString? [] rest
  | '-' => readNumber? true rest
  | 'n' => readWord? "ull" .null rest
  | 't' => readWord? "rue" (.bool true) rest
  | 'f' => readWord? "alse" (.bool false) rest
  | c => readNumber? false (c :: rest)

theorem readString?_length {units : List Unit} {cs : List Char} {r : Token × List Char}
    (h : readString? units cs = some r) : r.2.length < cs.length := by
  fun_induction readString? units cs with
  | case1 => simp at h
  | case2 => cases h; simp
  | case3 _ _ _ _ _ _ _ _ _ ih => have := ih h; simp; omega
  | case4 => simp at h
  | case5 _ _ _ _ _ _ ih => have := ih h; simp; omega
  | case6 => simp at h
  | case7 => simp at h
  | case8 _ _ _ _ _ _ _ ih => have := ih h; simp; omega

theorem readExponent?_length {cs : List Char} {r : Option (Bool × List Char) × List Char}
    (h : readExponent? cs = some r) : r.2.length ≤ cs.length := by
  unfold readExponent? at h
  split at h
  · cases h; simp
  split at h
  · next c rest _ =>
    have tail (ds : List Char) : (ds.dropWhile Char.isDigit).length ≤ ds.length :=
      (List.dropWhile_suffix _).length_le
    split at h
    next below ds split_eq =>
    have short : ds.length ≤ rest.length := by
      split at split_eq <;> cases split_eq <;> simp
    simp only at h
    split at h
    · simp at h
    · cases h
      have := tail ds
      simp; omega
  · cases h; simp

theorem readNumber?_length {negative : Bool} {cs : List Char} {r : Token × List Char}
    (h : readNumber? negative cs = some r) : r.2.length < cs.length := by
  have split_length : cs.length =
      (cs.takeWhile Char.isDigit).length + (cs.dropWhile Char.isDigit).length := by
    rw [← List.length_append, List.takeWhile_append_dropWhile]
  unfold readNumber? at h
  simp only at h
  split at h
  · simp at h
  next whole =>
  have digits : 0 < (cs.takeWhile Char.isDigit).length := by
    simp only [Bool.or_eq_true, not_or, List.isEmpty_iff] at whole
    exact List.length_pos_iff.mpr whole.1
  split at h
  · next more hd =>
    split at h
    · simp at h
    obtain ⟨e, he, rfl⟩ := Option.map_eq_some_iff.1 h
    have := readExponent?_length he
    have tail : (more.dropWhile Char.isDigit).length ≤ more.length :=
      (List.dropWhile_suffix _).length_le
    simp only [hd, List.length_cons] at split_length
    simp only
    omega
  · obtain ⟨e, he, rfl⟩ := Option.map_eq_some_iff.1 h
    have := readExponent?_length he
    split <;> simp only <;> omega

theorem readWord?_length {letters : String} {token : Token} {cs : List Char}
    {r : Token × List Char} (h : readWord? letters token cs = some r) :
    r.2.length ≤ cs.length := by
  unfold readWord? after? at h
  obtain ⟨rest, hr, rfl⟩ := Option.map_eq_some_iff.1 h
  split at hr
  · cases hr; simp
  · simp at hr

theorem ofChar?_length {c : Char} {rest : List Char} {r : Token × List Char}
    (h : ofChar? c rest = some r) : r.2.length ≤ rest.length := by
  unfold ofChar? at h
  split at h
  any_goals cases h; simp
  · exact Nat.le_of_lt (readString?_length h)
  · exact Nat.le_of_lt (readNumber?_length h)
  · exact readWord?_length h
  · exact readWord?_length h
  · exact readWord?_length h
  · have := readNumber?_length h
    simp at this; omega

def tokensOnto (before : List Token) : List Char → Option (List Token)
  | [] => some before.reverse
  | c :: rest =>
    if isSpace c then tokensOnto before rest
    else
      match _h : ofChar? c rest with
      | none => none
      | some (token, rest) => tokensOnto (token :: before) rest
termination_by cs => cs.length
decreasing_by
  · simp
  · have := ofChar?_length (by assumption)
    simp at *; omega

def tokens? (cs : List Char) : Option (List Token) :=
  tokensOnto [] cs

end Token

end SheetLint.Json
