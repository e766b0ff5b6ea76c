/-!
Patterns of file names. `?` stands for any character, `*` for any run of characters, `[...]` for one
character of a class and `[!...]` for one outside of it. `**`, as a whole component of a path, stands
for any number of directories.
-/

namespace SheetLint.Glob

inductive PatternError.Cause where
  | wildcards
  | recursiveWildcards
  | range
deriving DecidableEq, Repr

structure PatternError where
  cause : PatternError.Cause
  pos : Nat
deriving DecidableEq, Repr

def PatternError.Cause.message : PatternError.Cause → String
  | wildcards => "wildcards are either regular `*` or recursive `**`"
  | recursiveWildcards => "recursive wildcards must form a single path component"
  | range => "invalid range pattern"

def PatternError.message (e : PatternError) : String :=
  "Pattern syntax error near position " ++ toString e.pos ++ ": " ++ e.cause.message

structure Range where
  first : Char
  last : Char
deriving DecidableEq, Repr

inductive Token where
  | char (c : Char)
  | anyChar
  | anyRun
  | anyDirectories
  | within (ranges : List Range)
  | except (ranges : List Range)
deriving DecidableEq, Repr

/-- The members of a class. A dash between two characters makes a range. -/
def rangesOf : List Char → List Range
  | [] => []
  | c :: '-' :: d :: rest => ⟨c, d⟩ :: rangesOf rest
  | c :: rest => ⟨c, c⟩ :: rangesOf rest

/-- A class cut out of the text after an opening bracket: its token and what follows it. The class
has at least one character, and a bracket that closes may be its first. -/
def class? : List Char → Option (Token × List Char)
  | '!' :: c :: rest =>
    match rest.dropWhile (· != ']') with
    | [] => none
    | _ :: after => some (.except (rangesOf (c :: rest.takeWhile (· != ']'))), after)
  | '!' :: [] => none
  | c :: rest =>
    match rest.dropWhile (· != ']') with
    | [] => none
    | _ :: after => some (.within (rangesOf (c :: rest.takeWhile (· != ']'))), after)
  | [] => none

/-- What two stars make at a position, given the character before them and the text after them:
they stand alone between slashes, and take the slash after them with them. -/
def directories (pos : Nat) (before : Option Char) (after : List Char) :
    Except PatternError (List Char) :=
  if before.all (· == '/') then
    match after with
    | [] => .ok []
    | '/' :: rest => .ok rest
    | _ => .error ⟨.recursiveWildcards, pos + 2⟩
  else .error ⟨.recursiveWildcards, pos - 1⟩

theorem length_class?_lt {cs : List Char} {r : Token × List Char} (h : class? cs = some r) :
    r.2.length < cs.length + 1 := by
  unfold class? at h
  split at h
  · next c rest =>
    have := (List.dropWhile_suffix (· != ']') (l := rest)).length_le
    split at h
    · simp at h
    · next hd => cases h; rw [hd] at this; simp at *; omega
  · simp at h
  · next c rest _ _ =>
    have := (List.dropWhile_suffix (· != ']') (l := rest)).length_le
    split at h
    · simp at h
    · next hd => cases h; rw [hd] at this; simp at *; omega
  · simp at h

theorem length_directories_le {pos : Nat} {before : Option Char} {after rest : List Char}
    (h : directories pos before after = .ok rest) : rest.length ≤ after.length := by
  unfold directories at h
  split at h
  · split at h
    · cases h; simp
    · cases h; simp
    · simp at h
  · simp at h

/-- The tokens of the rest of a pattern, which begins at a position and follows the character
`before`. -/
def tokensFrom (pos : Nat) (before : Option Char) (cs : List Char) :
    Except PatternError (List Token) :=
  match cs with
  | [] => .ok []
  | '?' :: rest => (tokensFrom (pos + 1) (some '?') rest).map (.anyChar :: ·)
  | '*' :: rest =>
    let stars := (rest.takeWhile (· == '*')).length + 1
    if 2 < stars then .error ⟨.wildcards, pos + 2⟩
    else if stars = 1 then (tokensFrom (pos + 1) (some '*') rest).map (.anyRun :: ·)
    else
      match _h : directories pos before (rest.drop 1) with
      | .error e => .error e
      | .ok after =>
        let taken := rest.length + 1 - after.length
        (tokensFrom (pos + taken) (if taken = 2 then some '*' else some '/') after).map
          (.anyDirectories :: ·)
  | '[' :: rest =>
    match _h : class? rest with
    | none => .error ⟨.range, pos⟩
    | some (token, after) =>
      (tokensFrom (pos + (rest.length + 1 - after.length)) (some ']') after).map (token :: ·)
  | c :: rest => (tokensFrom (pos + 1) (some c) rest).map (.char c :: ·)
termination_by cs.length
decreasing_by
  · simp
  · simp
  · have := length_directories_le (by assumption)
    simp at *; omega
  · have := length_class?_lt (by assumption)
    simp at *; omega
  · simp

def tokens (pattern : List Char) : Except PatternError (List Token) :=
  tokensFrom 0 none pattern

def isIn (ranges : List Range) (c : Char) : Bool :=
  ranges.any fun r => r.first ≤ c && c ≤ r.last

def Token.accepts (t : Token) (c : Char) : Bool :=
  match t with
  | .char d => c == d
  | .anyChar => true
  | .within ranges => isIn ranges c
  | .except ranges => !isIn ranges c
  | .anyRun => false
  | .anyDirectories => false

def anySuffix (p : List Char → Bool) : List Char → Bool
  | [] => p []
  | c :: cs => p (c :: cs) || anySuffix p cs

def matchesAll : List Token → List Char → Bool
  | [], cs => cs.isEmpty
  | .anyRun :: ts, cs => anySuffix (matchesAll ts) cs
  | .anyDirectories :: ts, cs => anySuffix (matchesAll ts) cs
  | _ :: _, [] => false
  | t :: ts, c :: cs => t.accepts c && matchesAll ts cs

/-- The name that tokens stand for, if they stand for one name only. -/
def literal? : List Token → Option (List Char)
  | [] => some []
  | .char c :: ts => (literal? ts).map (c :: ·)
  | _ => none

end SheetLint.Glob
