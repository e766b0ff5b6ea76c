import SheetLint.Toml.Value

/-!
The words of TOML documents that are written without quotes: truth values, numbers, dates and
times.
-/

namespace SheetLint.Toml.Word

def digitValue? (c : Char) : Option Nat :=
  if c.isDigit then some (c.toNat - '0'.toNat)
  else if 'a' ≤ c ∧ c ≤ 'f' then some (c.toNat - 'a'.toNat + 10)
  else if 'A' ≤ c ∧ c ≤ 'F' then some (c.toNat - 'A'.toNat + 10)
  else none

def isDigitOf (base : Nat) (c : Char) : Bool :=
  match digitValue? c with
  | some d => d < base
  | none => false

def digitsValue (base : Nat) (ds : List Char) : Nat :=
  ds.foldl (fun n d => base * n + (digitValue? d).getD 0) 0

/-- A row of one or more digits, in which an underscore may stand between two digits, without its
underscores. -/
def digits? (base : Nat) : List Char → Option (List Char)
  | [] => none
  | [c] => if isDigitOf base c then some [c] else none
  | c :: d :: rest =>
    if !isDigitOf base c then none
    else if d = '_' then (digits? base rest).map (c :: ·)
    else (digits? base (d :: rest)).map (c :: ·)

/-- Decimal digits without needless zeros in front. -/
def decimalDigits? (cs : List Char) : Option (List Char) :=
  match digits? 10 cs with
  | some ('0' :: _ :: _) => none
  | ds => ds

/-- The sign in front of a number, if it is a minus, and what follows. -/
def takeSign : List Char → Bool × List Char
  | '-' :: rest => (true, rest)
  | '+' :: rest => (false, rest)
  | cs => (false, cs)

/-- An integer. Only decimal ones have a sign. -/
def integer? (cs : List Char) : Option Int :=
  match cs with
  | '0' :: 'x' :: ds => (digits? 16 ds).map fun ds => (digitsValue 16 ds : Int)
  | '0' :: 'o' :: ds => (digits? 8 ds).map fun ds => (digitsValue 8 ds : Int)
  | '0' :: 'b' :: ds => (digits? 2 ds).map fun ds => (digitsValue 2 ds : Int)
  | cs =>
    let (negative, ds) := takeSign cs
    (decimalDigits? ds).map fun ds =>
      let n : Int := digitsValue 10 ds
      if negative then -n else n

def isExponentMark (c : Char) : Bool :=
  c == 'e' || c == 'E'

/-- The exponent that a number ends with; zero if the rest is empty. -/
def exponent? : List Char → Option Int
  | [] => some 0
  | _ :: rest =>
    let (negative, ds) := takeSign rest
    (digits? 10 ds).map fun ds =>
      let n : Int := digitsValue 10 ds
      if negative then -n else n

def floatValue (negative : Bool) (whole fraction : List Char) (exponent : Int) : Value :=
  let digits := digitsValue 10 (whole ++ fraction)
  match Binary64.ofDecimal? negative digits (exponent - fraction.length) with
  | some x => .float (some x)
  | none => .overflow

/-- A floating-point number. It has a fraction, an exponent or both. -/
def float? (cs : List Char) : Option Value :=
  let (negative, cs) := takeSign cs
  if cs = ['i', 'n', 'f'] ∨ cs = ['n', 'a', 'n'] then some (.float none)
  else
    let mantissa := cs.takeWhile (!isExponentMark ·)
    let exponent := cs.dropWhile (!isExponentMark ·)
    let whole := mantissa.takeWhile (· != '.')
    match mantissa.dropWhile (· != '.') with
    | [] =>
      if exponent.isEmpty then none
      else
        match decimalDigits? whole, exponent? exponent with
        | some whole, some e => some (floatValue negative whole [] e)
        | _, _ => none
    | _ :: fraction =>
      match decimalDigits? whole, digits? 10 fraction, exponent? exponent with
      | some whole, some fraction, some e => some (floatValue negative whole fraction e)
      | _, _, _ => none

/-! ## Dates and times -/

def twoDigits? (low high : Nat) (a b : Char) : Option Nat :=
  if a.isDigit && b.isDigit then
    let n := digitsValue 10 [a, b]
    if low ≤ n ∧ n ≤ high then some n else none
  else none

def daysOf (year month : Nat) : Nat :=
  if month = 2 then
    if year % 4 = 0 ∧ (year % 100 ≠ 0 ∨ year % 400 = 0) then 29 else 28
  else if month = 4 ∨ month = 6 ∨ month = 9 ∨ month = 11 then 30
  else 31

/-- A date at the start of a word, and what follows. -/
def takeDate? (cs : List Char) : Option (List Char × List Char) :=
  match cs with
  | y₁ :: y₂ :: y₃ :: y₄ :: '-' :: m₁ :: m₂ :: '-' :: d₁ :: d₂ :: rest =>
    let year := [y₁, y₂, y₃, y₄]
    if year.all Char.isDigit then
      match twoDigits? 1 12 m₁ m₂ with
      | none => none
      | some month =>
        (twoDigits? 1 (daysOf (digitsValue 10 year) month) d₁ d₂).map fun _ =>
          (year ++ ['-', m₁, m₂, '-', d₁, d₂], rest)
    else none
  | _ => none

def fractionText (ds : List Char) : List Char :=
  match ((ds.take 9).reverse.dropWhile (· == '0')).reverse with
  | [] => []
  | d :: ds => '.' :: d :: ds

/-- The seconds of a time, and what follows. Without seconds there are none. -/
def takeSeconds? (cs : List Char) : Option (List Char × List Char) :=
  match cs with
  | ':' :: s₁ :: s₂ :: '.' :: rest =>
    let ds := rest.takeWhile Char.isDigit
    if ds.isEmpty then none
    else
      (twoDigits? 0 60 s₁ s₂).map fun _ =>
        ([':', s₁, s₂] ++ fractionText ds, rest.dropWhile Char.isDigit)
  | ':' :: s₁ :: s₂ :: rest => (twoDigits? 0 60 s₁ s₂).map fun _ => ([':', s₁, s₂], rest)
  | ':' :: _ => none
  | cs => some ([':', '0', '0'], cs)

/-- A time at the start of a word, and what follows. -/
def takeTime? (cs : List Char) : Option (List Char × List Char) :=
  match cs with
  | h₁ :: h₂ :: ':' :: m₁ :: m₂ :: rest =>
    match twoDigits? 0 23 h₁ h₂, twoDigits? 0 59 m₁ m₂ with
    | some _, some _ =>
      (takeSeconds? rest).map fun s => ([h₁, h₂, ':', m₁, m₂] ++ s.1, s.2)
    | _, _ => none
  | _ => none

/-- The text of the offset from universal time, which may be missing. -/
def offset? (cs : List Char) : Option (List Char) :=
  match cs with
  | [] => some []
  | ['Z'] => some ['Z']
  | ['z'] => some ['Z']
  | [sign, h₁, h₂, ':', m₁, m₂] =>
    if sign = '+' ∨ sign = '-' then
      match twoDigits? 0 24 h₁ h₂, twoDigits? 0 59 m₁ m₂ with
      | some hours, some minutes =>
        let total := 60 * hours + minutes
        if 24 * 60 < total then none
        else if total = 0 then some ['+', '0', '0', ':', '0', '0']
        else some cs
      | _, _ => none
    else none
  | _ => none

def isMomentMark (c : Char) : Bool :=
  c == 'T' || c == 't' || c == ' '

def moment? (cs : List Char) : Option (List Char) :=
  match takeDate? cs with
  | some (date, []) => some date
  | some (date, c :: rest) =>
    if isMomentMark c then
      match takeTime? rest with
      | none => none
      | some (time, rest) => (offset? rest).map fun offset => date ++ 'T' :: time ++ offset
    else none
  | none =>
    match takeTime? cs with
    | some (time, []) => some time
    | _ => none

def isDate (cs : List Char) : Bool :=
  match takeDate? cs with
  | some (_, []) => true
  | _ => false

def value? (cs : List Char) : Option Value :=
  if cs = "true".toList then some (.boolean true)
  else if cs = "false".toList then some (.boolean false)
  else
    match integer? cs, float? cs, moment? cs with
    | some n, _, _ => some (.integer n)
    | none, some v, _ => some v
    | none, none, some text => some (.moment (String.ofList text))
    | none, none, none => none

end SheetLint.Toml.Word
