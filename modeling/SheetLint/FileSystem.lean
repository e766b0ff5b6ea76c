import SheetLint.Path

/-!
File systems as values: a tree of directories, files and symbolic links, and the directory that
relative paths start from. `resolve` follows a path to what it leads to; reading, listing and
asking for a kind are defined through it.
-/

namespace SheetLint

inductive IoError where
  | notFound
  | notADirectory
  | isADirectory
  | nameTooLong
  | tooManyLinks
  | notText
  | zeroInPath
  | other (message : String)
deriving DecidableEq, Repr

def IoError.message : IoError → String
  | notFound => "No such file or directory (os error 2)"
  | notADirectory => "Not a directory (os error 20)"
  | isADirectory => "Is a directory (os error 21)"
  | nameTooLong => "File name too long (os error 36)"
  | tooManyLinks => "Too many levels of symbolic links (os error 40)"
  | notText => "stream did not contain valid UTF-8"
  | zeroInPath => "file name contained an unexpected NUL byte"
  | other message => message

inductive Entry where
  | file (contents : Except IoError String)
  /-- A directory, and the reason if it cannot be listed. -/
  | directory (refusal : Option IoError) (entries : List (String × Entry))
  | link (target : String)

namespace Entry

def entries : Entry → List (String × Entry)
  | .directory _ es => es
  | _ => []

def isDirectory : Entry → Bool
  | .directory _ _ => true
  | _ => false

def isFile : Entry → Bool
  | .file _ => true
  | _ => false

def child? (e : Entry) (name : String) : Option Entry :=
  (e.entries.find? fun entry => entry.1 = name).map fun entry => entry.2

def descend? (e : Entry) : List String → Option Entry
  | [] => some e
  | name :: names => (e.child? name).bind (·.descend? names)

/-- Applies a function to the entry of a name in a list; a new name goes to the end. -/
def modifyEntry (name : String) (f : Option Entry → Entry) :
    List (String × Entry) → List (String × Entry)
  | [] => [(name, f none)]
  | (n, e) :: rest => if n = name then (n, f (some e)) :: rest else (n, e) :: modifyEntry name f rest

/-- Puts an entry at the end of a list of names. Directories that are missing on the way are made,
and anything that stands in the way stays as it is. -/
def put (new : Entry) : List String → Entry → Entry
  | [], _ => new
  | name :: names, .directory refusal es =>
    .directory refusal
      (modifyEntry name (fun old => put new names (old.getD (.directory none []))) es)
  | _ :: _, e => e

def height : Entry → Nat
  | .file _ => 0
  | .link _ => 0
  | .directory _ es => heights es + 1
where
  heights : List (String × Entry) → Nat
    | [] => 0
    | e :: es => max (height e.2) (heights es)

end Entry

/-- A file system, with the names that lead from the root to the working directory. -/
structure FileSystem where
  root : Entry
  workingDirectory : List String

namespace FileSystem

def empty : FileSystem := ⟨.directory none [], []⟩

def maxLinks : Nat := 40

def maxNameBytes : Nat := 255

/-- Follows segments from the place to which `here` leads, with at most `links` symbolic links on
the way. A link at the very end is followed only if `follow` says so. -/
def walk (fs : FileSystem) (follow : Bool) (links : Nat) (here : List String)
    (segments : List (List Char)) : Except IoError (List String) :=
  match segments with
  | [] => .ok here
  | segment :: rest =>
    match fs.root.descend? here with
    | some (.directory refusal es) =>
      if Path.isIdle segment then walk fs follow links here rest
      else if segment = ['.', '.'] then walk fs follow links here.dropLast rest
      else
        let name := String.ofList segment
        if maxNameBytes < name.utf8ByteSize then .error .nameTooLong
        else
          match Entry.child? (.directory refusal es) name with
          | none => .error .notFound
          | some (.link target) =>
            if rest.isEmpty && !follow then .ok (here ++ [name])
            else
              match links with
              | 0 => .error .tooManyLinks
              | links + 1 =>
                walk fs follow links (if Path.isAbsolute target then [] else here)
                  (Path.segments target ++ rest)
          | some _ => walk fs follow links (here ++ [name]) rest
    | _ => .error .notADirectory
termination_by (links, segments.length)

def resolve (fs : FileSystem) (follow : Bool) (path : String) : Except IoError (List String) :=
  if path.isEmpty then .error .notFound
  else if path.toList.contains '\x00' then .error .zeroInPath
  else
    walk fs follow maxLinks (if Path.isAbsolute path then [] else fs.workingDirectory)
      (Path.segments path)

def lookup (fs : FileSystem) (path : String) : Except IoError Entry :=
  match fs.resolve true path with
  | .error e => .error e
  | .ok names =>
    match fs.root.descend? names with
    | some e => .ok e
    | none => .error .notFound

def found (fs : FileSystem) (path : String) : Bool :=
  match fs.lookup path with
  | .ok _ => true
  | .error _ => false

/-- Whether a path leads to something, if only to a symbolic link. -/
def exists? (fs : FileSystem) (path : String) : Bool :=
  fs.found path ||
    match fs.resolve false path with
    | .ok _ => true
    | .error _ => false

def isDirectory (fs : FileSystem) (path : String) : Bool :=
  match fs.lookup path with
  | .ok e => e.isDirectory
  | .error _ => false

def isFile (fs : FileSystem) (path : String) : Bool :=
  match fs.lookup path with
  | .ok e => e.isFile
  | .error _ => false

def read (fs : FileSystem) (path : String) : Except IoError String :=
  match fs.lookup path with
  | .error e => .error e
  | .ok (.file contents) => contents
  | .ok _ => .error .isADirectory

def list (fs : FileSystem) (path : String) : Except IoError (List (String × Entry)) :=
  match fs.lookup path with
  | .error e => .error e
  | .ok (.directory none es) => .ok (es.mergeSort fun a b => decide (a.1 ≤ b.1))
  | .ok (.directory (some e) _) => .error e
  | .ok _ => .error .notADirectory

/-- The names to which a path leads when its directories are made as needed, for putting something
there. -/
def placeOf (fs : FileSystem) (path : String) : List String :=
  let step (here : List String) (segment : List Char) : List String :=
    if Path.isIdle segment then here
    else
      match fs.walk true maxLinks here [segment] with
      | .ok names => names
      | .error _ => here ++ [String.ofList segment]
  (Path.segments path).foldl step (if Path.isAbsolute path then [] else fs.workingDirectory)

def put (fs : FileSystem) (path : String) (e : Entry) : FileSystem :=
  { fs with root := e.put (fs.placeOf path) fs.root }

end FileSystem

end SheetLint
