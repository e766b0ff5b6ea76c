import SheetLint.Toml.Word

/-!
The tokens of TOML documents. Keys and values are written with the same characters but cut into
tokens by different rules, so there is one reader for each.
-/

namespace SheetLint.Toml

inductive Token where
  | key (name : String)
  | scalar (v : Value)
  | dot
  | equals
  | comma
  | openArray
  | closeArray
  | openArrays
  | closeArrays
  | openTable
  | closeTable
  | newline
deriving Repr

namespace Token

def isSpace (c : Char) : Bool :=
  c == ' ' || c == '\t'

/-- The characters that comments and strings may hold as they are. -/
def isPlain (c : Char) : Bool :=
  c == '\t' || (0x20 ≤ c.toNat && c.toNat != 0x7F)

def isBare (c : Char) : Bool :=
  c.isAlphanum || c == '_' || c == '-'

def isWord (c : Char) : Bool :=
  isBare c || c == '+' || c == '.' || c == ':'

def simpleEscape? (c : Char) : Option Char :=
  match c with
  | 'b' => some '\x08'
  | 't' => some '\t'
  | 'n' => some '\n'
  | 'f' => some '\x0c'
  | 'r' => some '\r'
  | 'e' => some '\x1b'
  | '"' => some '"'
  | '\\' => some '\\'
  | _ => none

def numberedChar? (ds : List Char) : Option Char :=
  if ds.all (Word.isDigitOf 16) then
    let n := Word.digitsValue 16 ds
    if n.isValidChar then some (Char.ofNat n) else none
  else none

def escapeLength (c : Char) : Nat :=
  match c with
  | 'x' => 2
  | 'u' => 4
  | 'U' => 8
  | _ => 0

def readEscape? (cs : List Char) : Option (Char × List Char) :=
  match cs with
  | [] => none
  | c :: rest =>
    match escapeLength c with
    | 0 => (simpleEscape? c).map fun e => (e, rest)
    | n =>
      if rest.length < n then none
      else (numberedChar? (rest.take n)).map fun e => (e, rest.drop n)

theorem readEscape?_length {cs : List Char} {r : Char × List Char} (h : readEscape? cs = some r) :
    r.2.length < cs.length := by
  unfold readEscape? at h
  split at h
  · simp at h
  · split at h
    · obtain ⟨e, _, rfl⟩ := Option.map_eq_some_iff.1 h
      simp
    · split at h
      · simp at h
      · obtain ⟨e, _, rfl⟩ := Option.map_eq_some_iff.1 h
        simp only [List.length_drop, List.length_cons]
        omega

/-- Reads a string in double quotes up to its closing quote; `text` holds what was read so far,
last first. -/
def readQuoted? (text : List Char) (cs : List Char) : Option (String × List Char) :=
  match cs with
  | [] => none
  | c :: rest =>
    if c = '"' then some (String.ofList text.reverse, rest)
    else if c = '\\' then
      match _h : readEscape? rest with
      | none => none
      | some (e, rest) => readQuoted? (e :: text) rest
    else if isPlain c then readQuoted? (c :: text) rest
    else none
termination_by cs.length
decreasing_by
  · have := readEscape?_length (by assumption)
    simp at *; omega
  · simp

theorem readQuoted?_length {text cs : List Char} {r : String × List Char}
    (h : readQuoted? text cs = some r) : r.2.length < cs.length := by
  fun_induction readQuoted? text cs with
  | case1 => simp at h
  | case2 => cases h; simp
  | case3 => simp at h
  | case4 _ _ _ _ he _ ih =>
    have := readEscape?_length he
    have := ih h
    simp at *; omega
  | case5 _ _ _ _ _ _ ih => have := ih h; simp; omega
  | case6 => simp at h

def afterBreak? : List Char → Option (List Char)
  | '\n' :: rest => some rest
  | '\r' :: '\n' :: rest => some rest
  | _ => none

def dropBreak (cs : List Char) : List Char :=
  (afterBreak? cs).getD cs

def endsLine (cs : List Char) : Bool :=
  (afterBreak? (cs.dropWhile isSpace)).isSome

theorem dropBreak_length (cs : List Char) : (dropBreak cs).length ≤ cs.length := by
  unfold dropBreak afterBreak?
  split <;> simp
  omega

/-- Reads a string of several lines up to three quotes. A quote or two may stand before them. With
`escapes` a backslash begins an escape, and one at the end of a line joins the text before it to
the next character that is no blank; `joining` says that this character has not come yet. -/
def readLines? (quote : Char) (escapes : Bool) (joining : Bool) (text : List Char)
    (cs : List Char) : Option (String × List Char) :=
  match cs with
  | [] => none
  | c :: rest =>
    if joining && (isSpace c || c == '\n') then readLines? quote escapes joining text rest
    else if c = '\r' then
      if rest.head? = some '\n' then
        readLines? quote escapes joining (if joining then text else c :: text) rest
      else none
    else if c = quote then
      let quotes := (c :: rest).takeWhile (· == quote)
      if quotes.length < 3 then readLines? quote escapes false (c :: text) rest
      else
        let more := min (quotes.length - 3) 2
        some (String.ofList (List.replicate more quote ++ text).reverse, rest.drop (2 + more))
    else if c = '\\' && escapes then
      if endsLine rest then readLines? quote escapes true text rest
      else
        match _h : readEscape? rest with
        | none => none
        | some (e, rest) => readLines? quote escapes false (e :: text) rest
    else if isPlain c || c == '\n' then readLines? quote escapes false (c :: text) rest
    else none
termination_by cs.length
decreasing_by
  · simp
  · simp
  · simp
  · simp
  · have := readEscape?_length (by assumption)
    simp at *; omega
  · simp

theorem readLines?_length {quote : Char} {escapes joining : Bool} {text cs : List Char}
    {r : String × List Char} (h : readLines? quote escapes joining text cs = some r) :
    r.2.length < cs.length := by
  fun_induction readLines? quote escapes joining text cs with
  | case1 => simp at h
  | case2 _ _ _ _ _ ih => have := ih h; simp; omega
  | case3 _ _ _ _ _ ih => have := ih h; simp; omega
  | case4 => simp at h
  | case5 _ _ _ _ _ _ _ ih => have := ih h; simp; omega
  | case6 =>
    cases h
    simp only [List.length_drop, List.length_cons]
    omega
  | case7 _ _ _ _ _ _ _ _ _ ih => have := ih h; simp; omega
  | case8 => simp at h
  | case9 _ _ _ _ _ _ _ _ _ _ _ he ih =>
    have := readEscape?_length he
    have := ih h
    simp at *; omega
  | case10 _ _ _ _ _ _ _ _ _ ih => have := ih h; simp; omega
  | case11 => simp at h

/-- Reads a string in single quotes up to its closing quote. Nothing is escaped. -/
def readLiteral? (cs : List Char) : Option (String × List Char) :=
  let text := cs.takeWhile fun c => isPlain c && c != '\''
  match cs.dropWhile fun c => isPlain c && c != '\'' with
  | '\'' :: rest => some (String.ofList text, rest)
  | _ => none

theorem readLiteral?_length {cs : List Char} {r : String × List Char}
    (h : readLiteral? cs = some r) : r.2.length < cs.length := by
  unfold readLiteral? at h
  simp only at h
  split at h
  · next rest hd =>
    cases h
    have := (List.dropWhile_suffix (l := cs) fun c => isPlain c && c != '\'').length_le
    rw [hd] at this
    simp at this ⊢; omega
  · simp at h

def readLine? (c : Char) (rest : List Char) : Option (String × List Char) :=
  if c = '"' then readQuoted? [] rest
  else if c = '\'' then readLiteral? rest
  else none

def readString? (c : Char) (rest : List Char) : Option (String × List Char) :=
  match rest with
  | d :: e :: more =>
    if d = c && e = c then
      if c = '"' then readLines? c true false [] (dropBreak more)
      else if c = '\'' then readLines? c false false [] (dropBreak more)
      else none
    else readLine? c rest
  | _ => readLine? c rest

theorem readLine?_length {c : Char} {rest : List Char} {r : String × List Char}
    (h : readLine? c rest = some r) : r.2.length < rest.length := by
  unfold readLine? at h
  split at h
  · exact readQuoted?_length h
  split at h
  · exact readLiteral?_length h
  · simp at h

theorem readString?_length {c : Char} {rest : List Char} {r : String × List Char}
    (h : readString? c rest = some r) : r.2.length < rest.length := by
  unfold readString? at h
  split at h
  · next d e more =>
    have := dropBreak_length more
    split at h
    · split at h
      · have := readLines?_length h
        simp; omega
      split at h
      · have := readLines?_length h
        simp; omega
      · simp at h
    · exact readLine?_length h
  · exact readLine?_length h

def mark? (c : Char) : Option Token :=
  match c with
  | '.' => some .dot
  | '=' => some .equals
  | ',' => some .comma
  | '[' => some .openArray
  | ']' => some .closeArray
  | '{' => some .openTable
  | '}' => some .closeTable
  | '\n' => some .newline
  | _ => none

/-- Reads the token that starts with the character `c`, where keys stand. The brackets of a header
that several tables share are one token. -/
def inKeys? (c : Char) (rest : List Char) : Option (Token × List Char) :=
  match c, rest with
  | '[', '[' :: more => some (.openArrays, more)
  | ']', ']' :: more => some (.closeArrays, more)
  | '\r', '\n' :: more => some (.newline, more)
  | _, _ =>
    match mark? c with
    | some t => some (t, rest)
    | none =>
      if isBare c then
        some (.key (String.ofList (c :: rest.takeWhile isBare)), rest.dropWhile isBare)
      else (readLine? c rest).map fun r => (.key r.1, r.2)

/-- Cuts a word off the front. A time may follow a date behind one blank. -/
def takeWord (cs : List Char) : List Char × List Char :=
  let word := cs.takeWhile isWord
  match cs.dropWhile isWord with
  | ' ' :: d :: rest =>
    if Word.isDate word && d.isDigit then
      (word ++ ' ' :: (d :: rest).takeWhile isWord, (d :: rest).dropWhile isWord)
    else (word, ' ' :: d :: rest)
  | rest => (word, rest)

/-- Reads the token that starts with the character `c`, where a value stands. -/
def inValues? (c : Char) (rest : List Char) : Option (Token × List Char) :=
  match c, rest with
  | '\r', '\n' :: more => some (.newline, more)
  | _, _ =>
    if isWord c then
      match (Word.value? (takeWord (c :: rest)).1) with
      | some v => some (.scalar v, (takeWord (c :: rest)).2)
      | none => none
    else
      match mark? c with
      | some t => some (t, rest)
      | none => (readString? c rest).map fun r => (.scalar (.string r.1), r.2)

theorem takeWord_length {c : Char} {rest : List Char} (h : isWord c) :
    (takeWord (c :: rest)).2.length ≤ rest.length := by
  have short : ((c :: rest).dropWhile isWord).length ≤ rest.length := by
    rw [List.dropWhile_cons_of_pos h]
    exact (List.dropWhile_suffix _).length_le
  unfold takeWord
  simp only
  split
  · next d more hd =>
    rw [hd] at short
    have := (List.dropWhile_suffix (l := d :: more) isWord).length_le
    split
    · simp at *; omega
    · simpa using short
  · exact short

theorem inKeys?_length {c : Char} {rest : List Char} {r : Token × List Char}
    (h : inKeys? c rest = some r) : r.2.length ≤ rest.length := by
  unfold inKeys? at h
  split at h
  any_goals cases h; simp
  split at h
  · cases h; simp
  split at h
  · cases h
    exact (List.dropWhile_suffix _).length_le
  · obtain ⟨s, hs, rfl⟩ := Option.map_eq_some_iff.1 h
    exact Nat.le_of_lt (readLine?_length hs)

theorem inValues?_length {c : Char} {rest : List Char} {r : Token × List Char}
    (h : inValues? c rest = some r) : r.2.length ≤ rest.length := by
  unfold inValues? at h
  split at h
  · cases h; simp
  split at h
  · next word =>
    split at h
    · cases h
      exact takeWord_length word
    · simp at h
  split at h
  · cases h; simp
  · obtain ⟨s, hs, rfl⟩ := Option.map_eq_some_iff.1 h
    exact Nat.le_of_lt (readString?_length hs)

def skipBlanks (cs : List Char) : List Char :=
  match cs.dropWhile isSpace with
  | '#' :: rest => rest.dropWhile isPlain
  | rest => rest

theorem skipBlanks_length (cs : List Char) : (skipBlanks cs).length ≤ cs.length := by
  have short := (List.dropWhile_suffix (l := cs) isSpace).length_le
  unfold skipBlanks
  split
  · next rest hd =>
    rw [hd] at short
    have := (List.dropWhile_suffix (l := rest) isPlain).length_le
    simp at short; omega
  · exact short

end Token

end SheetLint.Toml
