import SheetLint.FileSystem
import SheetLint.Glob.Pattern

/-!
Looking for the paths that match a pattern. A search goes from directory to directory and takes
the entries of each in the order of their names. It yields directories as well as files, and the
directories that it could not list.
-/

namespace SheetLint.Glob

inductive Match where
  | found (path : String)
  | unreadable (path : String) (error : IoError)
deriving DecidableEq, Repr

structure Place where
  path : String
  isDirectory : Bool
deriving DecidableEq, Repr

structure Query where
  components : List (List Token)
  directoriesOnly : Bool
  absolute : Bool
deriving DecidableEq, Repr

namespace Query

/-- The texts of the components of a pattern. A slash at the end does not start a new one. -/
def componentTexts (pattern : List Char) : List (List Char) :=
  let texts := Path.segments (String.ofList pattern)
  if texts.getLast? = some [] then texts.dropLast else texts

def ofPattern (pattern : String) : Except PatternError Query :=
  match tokens pattern.toList with
  | .error e => .error e
  | .ok _ =>
    let absolute := Path.isAbsolute pattern
    let body := if absolute then pattern.toList.drop 1 else pattern.toList
    match (componentTexts body).mapM tokens with
    | .error e => .error e
    | .ok components =>
      .ok
        { components := if body.isEmpty then [[]] else components
          directoriesOnly := pattern.toList.getLast? = some '/'
          absolute }

def entryPath (directory name : String) : String :=
  if Path.components directory = [.current] then name else Path.join directory name

def arrive (q : Query) (p : Place) : List Match :=
  if q.directoriesOnly && !p.isDirectory then [] else [.found p.path]

def isRecursive (component : List Token) : Bool :=
  component.contains .anyDirectories

/-- The two entries that every directory has, if a component with a leading dot matches them. -/
def dotEntries (component : List Token) : List String :=
  if component.head? = some (.char '.') then
    ["..", "."].filter fun name => matchesAll component name.toList
  else []

def placeAt (fs : FileSystem) (path : String) : Place :=
  ⟨path, fs.isDirectory path⟩

def placeOf (fs : FileSystem) (path : String) : Entry → Place
  | .directory _ _ => ⟨path, true⟩
  | .file _ => ⟨path, false⟩
  | .link _ => placeAt fs path

mutual

/-- What matches below a place, when at most `fuel` steps from directory to directory are made. -/
def below (fs : FileSystem) (q : Query) : Nat → List (List Token) → Place → List Match
  | 0, _, _ => []
  | _, [], _ => []
  | fuel + 1, component :: more, here =>
    match literal? component with
    | some name =>
      let name := String.ofList name
      let path := entryPath here.path name
      let isPresent :=
        if name = "." || name = ".." then here.isDirectory else fs.exists? path
      if isPresent then advance fs q fuel more (placeAt fs path) else []
    | none =>
      if here.isDirectory then
        match fs.list here.path with
        | .error e => [.unreadable here.path e]
        | .ok entries =>
          ((dotEntries component).flatMap fun name =>
            advance fs q fuel more (placeAt fs (Path.join here.path name))) ++
          entries.flatMap fun e =>
            visit fs q fuel component more e.1 (placeOf fs (entryPath here.path e.1) e.2)
      else []

def advance (fs : FileSystem) (q : Query) (fuel : Nat) (more : List (List Token)) (here : Place) :
    List Match :=
  if more.isEmpty then q.arrive here else below fs q fuel more here

def visit (fs : FileSystem) (q : Query) (fuel : Nat) (component : List Token)
    (more : List (List Token)) (name : String) (here : Place) : List Match :=
  if isRecursive component then
    match more.dropWhile isRecursive with
    | [] =>
      if here.isDirectory then .found here.path :: below fs q fuel [component] here else []
    | next :: more =>
      let own :=
        if matchesAll next name.toList then advance fs q fuel more here else []
      if here.isDirectory then own ++ below fs q fuel (component :: next :: more) here else own
  else if matchesAll component name.toList then advance fs q fuel more here
  else []

end

/-- More steps than any search makes: the components and the links on a way each start at most one
way down. -/
def maxSteps (fs : FileSystem) (q : Query) : Nat :=
  (FileSystem.maxLinks + q.components.length + 1) * (fs.root.height + 2)

def search (fs : FileSystem) (q : Query) : List Match :=
  below fs q (maxSteps fs q) q.components (placeAt fs (if q.absolute then "/" else "."))

end Query

def search (fs : FileSystem) (pattern : String) : Except PatternError (List Match) :=
  (Query.ofPattern pattern).map (·.search fs)

end SheetLint.Glob
