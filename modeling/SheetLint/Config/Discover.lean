import SheetLint.FileSystem

/-!
Finding a configuration file: the nearest directory on the way up that holds one, and of the files
in it the first by name.
-/

namespace SheetLint.Config

/-- The names of configuration files; an earlier one is preferred. -/
def fileNames : List String :=
  ["stylint.toml", "stylint.yaml", "stylint.yml", "stylint.json"]

def fileIn? (isFile : String → Bool) (directory : String) : Option String :=
  (fileNames.map (Path.join directory)).find? isFile

/-- A path, its parent, the parent of that, and so on. Every parent is shorter, so the way up
ends. -/
def wayUp (path : String) : List String :=
  match _h : Path.parent? path with
  | none => [path]
  | some parent => path :: wayUp parent
termination_by path.length
decreasing_by exact Path.parent?_length (by assumption)

def discover (isFile : String → Bool) (start : String) : Option String :=
  (wayUp start).findSome? (fileIn? isFile)

end SheetLint.Config
