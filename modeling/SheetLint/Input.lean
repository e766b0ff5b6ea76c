import SheetLint.Glob.Search
import SheetLint.Report
import SheetLint.RequestError

/-!
From what a request names to the inputs to check: either one given text, or the files that match
patterns. Files come in the order of the patterns and of the matches of each, and a file that
matches again is left out.
-/

namespace SheetLint

inductive Source where
  | code (text : String) (fileName : Option String)
  | files (patterns : List String)
deriving DecidableEq, Repr

structure Input where
  source : String
  path : Option String
  dialect : Dialect
  text : Except InputFault String

namespace Input

def codeSource : String := "<input>"

/-- The dialect of an input: the one that is asked for, or else the one that the extension of its
path implies, or else plain style sheets. -/
def dialectOf (hint path : Option String) : Except RequestError Dialect :=
  match hint with
  | some name =>
    match Dialect.ofName? name with
    | some d => .ok d
    | none => .error (.unknownDialect name)
  | none =>
    .ok (((path.bind Path.extension?).bind Dialect.ofExtension?).getD .css)

/-- The matches without those that come again and without directories. A path that comes again as
something else still comes again. -/
def distinct (isDirectory : String → Bool) (seen : List (List Path.Component)) :
    List Glob.Match → List Glob.Match
  | [] => []
  | .found path :: more =>
    if isDirectory path || seen.contains (Path.components path) then distinct isDirectory seen more
    else .found path :: distinct isDirectory (Path.components path :: seen) more
  | .unreadable path error :: more =>
    if seen.contains (Path.components path) then distinct isDirectory seen more
    else .unreadable path error :: distinct isDirectory (Path.components path :: seen) more

/-- All that a list of patterns matches, pattern by pattern, unless one of them is no pattern. -/
def matchesOf (fs : FileSystem) : List String → Except RequestError (List Glob.Match)
  | [] => .ok []
  | pattern :: more =>
    match Glob.search fs pattern with
    | .error e => .error (.invalidGlob pattern e)
    | .ok found => (matchesOf fs more).map (found ++ ·)

def readMatch (fs : FileSystem) : Glob.Match → String × Except InputFault String
  | .found path => (path, (fs.read path).mapError fun e => .unreadable e.message)
  | .unreadable path error => (path, .error (.unreadable error.message))

def ofMatch (fs : FileSystem) (hint : Option String) (m : Glob.Match) : Except RequestError Input :=
  let (path, text) := readMatch fs m
  (dialectOf hint (some path)).map fun dialect => ⟨path, some path, dialect, text⟩

/-- The inputs of a source, when all are to be read in the dialect `hint`, if one is given. -/
def expand (fs : FileSystem) (source : Source) (hint : Option String) :
    Except RequestError (List Input) :=
  match source with
  | .code text fileName =>
    (dialectOf hint fileName).map fun dialect =>
      [⟨fileName.getD codeSource, fileName, dialect, .ok text⟩]
  | .files patterns =>
    match matchesOf fs patterns with
    | .error e => .error e
    | .ok found => (distinct fs.isDirectory [] found).mapM (ofMatch fs hint)

end Input

end SheetLint
