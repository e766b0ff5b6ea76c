import SheetLint.CommandLine.Run

/-!
The program. It takes a view of the part of the file system that its arguments lead to, runs the
command on that view, prints what the command prints and exits with its code.
-/

namespace SheetLint.Program
open CommandLine

def refusalOf (e : IO.Error) : IoError :=
  match e with
  | .noFileOrDirectory _ _ _ => .notFound
  | .inappropriateType _ _ _ => .notADirectory
  | .permissionDenied _ _ _ => .other "Permission denied (os error 13)"
  | e => .other (toString e)

def textOf (bytes : ByteArray) : Except IoError String :=
  match String.fromUTF8? bytes with
  | some text => .ok text
  | none => .error .notText

def readText (path : String) : IO (Except IoError String) := do
  try
    return textOf (← IO.FS.readBinFile path)
  catch e =>
    return .error (refusalOf e)

/-- Where a symbolic link leads. One that leads nowhere gets a target that cannot exist, and one
that leads back to itself does so. -/
def targetOf (d : IO.FS.DirEntry) : IO String := do
  try
    return (← IO.FS.realPath d.path).toString
  catch e =>
    return if refusalOf e = .notFound then "\x00" else d.fileName

structure View where
  fileSystem : FileSystem
  listed : List String

mutual

/-- Looks at an entry of a directory, and at what a symbolic link leads to. -/
partial def lookAt (v : View) (d : IO.FS.DirEntry) : IO View := do
  let path := d.path.toString
  if v.fileSystem.exists? path then return v
  let put (e : Entry) : View := { v with fileSystem := v.fileSystem.put path e }
  try
    match (← d.path.symlinkMetadata).type with
    | .dir => return put (.directory none [])
    | .symlink =>
      let target ← targetOf d
      let v := put (.link target)
      if Path.isAbsolute target then lookAlong v target else return v
    | _ => return put (.file (.ok ""))
  catch _ =>
    return v

partial def lookAlong (v : View) (path : String) : IO View := do
  let mut v := v
  let mut here := "/"
  for segment in Path.segments path do
    let name := String.ofList segment
    if !Path.isIdle segment && name != ".." then
      v ← lookAt v ⟨here, name⟩
    here := Path.join here name
  return v

partial def lookBelow (v : View) (directory : String) : IO View := do
  let place ← IO.FS.realPath directory
  if v.listed.contains place.toString then return v
  let v ← lookAlong v place.toString
  let v := { v with listed := place.toString :: v.listed }
  try
    let mut v := v
    for d in ← place.readDir do
      v ← lookAt v d
      if v.fileSystem.isDirectory d.path.toString then
        v ← lookBelow v d.path.toString
    return v
  catch e =>
    let unlisted := Entry.directory (some (refusalOf e)) []
    return { v with fileSystem := v.fileSystem.put place.toString unlisted }

end

def lookFor (v : View) (directory pattern : String) : IO View := do
  let path := Path.join directory pattern
  let isFixed (segment : List Char) : Bool := !segment.any fun c => c == '*' || c == '?' || c == '['
  let fixed := Path.ofSegments ((Path.segments path).takeWhile isFixed)
  let v ← lookAlong v fixed
  if v.fileSystem.isDirectory fixed then lookBelow v fixed else return v

/-- Looks at the configuration files that may be found from a directory on upward. -/
def lookForConfig (v : View) (directory : String) : IO View :=
  (Config.wayUp directory).foldlM
    (fun v place => Config.fileNames.foldlM (fun v name => lookAlong v (Path.join place name)) v) v

def filesOf (fs : FileSystem) (directory : String) (a : LintArguments) : List String :=
  let config := (a.config.or (Config.discover fs.isFile directory)).toList
  match Input.matchesOf fs a.files with
  | .error _ => config
  | .ok found =>
    config ++ found.filterMap fun
      | .found path => some path
      | .unreadable _ _ => none

def fileSystemFor (a : LintArguments) : IO FileSystem := do
  let directory := (← IO.currentDir).toString
  let names := ((Path.segments directory).filter (!Path.isIdle ·)).map String.ofList
  let mut v : View := ⟨{ FileSystem.empty with workingDirectory := names }, []⟩
  v ← lookAlong v directory
  match a.config with
  | some path => v ← lookAlong v (Path.join directory path)
  | none => v ← lookForConfig v directory
  for pattern in a.files do
    v ← lookFor v directory pattern
  let mut fs := v.fileSystem
  for path in filesOf fs directory a do
    if fs.isFile path then
      fs := fs.put path (.file (← readText path))
  return fs

partial def readBytes (stream : IO.FS.Stream) (bytes : ByteArray) : IO ByteArray := do
  let more ← stream.read 65536
  if more.isEmpty then return bytes
  readBytes stream (bytes ++ more)

/-- What surrounds a run of a command. Only the linter depends on more than the colors. -/
def surroundingsOf (c : Command) : IO Surroundings := do
  let colors := (← IO.getEnv "NO_COLOR").isNone
  match c with
  | .lint a =>
    let fs ← fileSystemFor a
    let stdin ← if a.stdin then readBytes (← IO.getStdin) .empty else pure .empty
    return ⟨fs, textOf stdin, colors⟩
  | _ => return ⟨.empty, .ok "", colors⟩

def outcomeOf (arguments : List String) : IO Outcome := do
  match Invocation.ofArguments arguments with
  | .error i => return i.outcome
  | .ok invocation => return (← surroundingsOf invocation.command).run invocation.command

end SheetLint.Program

def main (arguments : List String) : IO UInt32 := do
  let out ← SheetLint.Program.outcomeOf arguments
  (← IO.getStdout).putStr out.stdout
  (← IO.getStderr).putStr out.stderr
  return out.code.toUInt32
