import SheetLint.CommandLine.Arguments
import SheetLint.Config.Discover
import SheetLint.Config.File
import SheetLint.Linter

/-!
Running a command: what it prints, and the code with which it exits. A run depends on the file
system, on standard input and on whether the terminal shows colors, and on nothing else.
-/

namespace SheetLint.CommandLine

/-- What surrounds a run. -/
structure Surroundings where
  fileSystem : FileSystem
  stdin : Except IoError String
  colors : Bool

structure Outcome where
  code : Nat
  stdout : String
  stderr : String
deriving DecidableEq, Repr

namespace Outcome

def success : Nat := 0

def failure : Nat := 1

/-- The code of a run that found errors, or whose arguments were wrong. -/
def refusal : Nat := 2

end Outcome

def version : String := "0.1.0"

def usageLines : List String :=
  ["Usage: stylint [OPTIONS] <COMMAND>",
    "",
    "Commands:",
    "  version  Show version",
    "  lint     Run lint checks",
    "  rules    List rules",
    "  help     Print this message",
    "",
    "Options:",
    "  -v, --verbose  Log progress (info level)",
    "      --debug    Log internals (debug level)",
    "  -h, --help     Print help",
    "  -V, --version  Print version",
    "",
    "Arguments and options of lint:",
    "  [FILES]...                   Glob patterns of files to lint",
    "      --code <CODE>            Literal code to lint",
    "      --stdin                  Read code from standard input",
    "      --stdin-filename <NAME>  Filename for --code/--stdin (display and syntax inference)",
    "      --config <PATH>          Path to a config file (default: discovered upward from cwd)",
    "      --syntax <NAME>          Force a syntax: css|scss|less|sugarss",
    "      --formatter <NAME>       Output mode: json|string",
    "      --allow-empty-input      Do not fail when no file matches",
    "",
    "Options of rules:",
    "      --output <MODE>  Output mode: human|json (default: human)"]

def usage : String :=
  String.join (usageLines.map (· ++ "\n"))

def Interruption.message : Interruption → String
  | help => ""
  | version => ""
  | noArguments => ""
  | missingCommand => "error: a command is required\n\n"
  | unknownCommand name => "error: unrecognized command `" ++ name ++ "`\n\n"
  | unknownArgument argument => "error: unexpected argument `" ++ argument ++ "`\n\n"
  | missingValue option => "error: a value is required for `--" ++ option ++ "`\n\n"
  | unexpectedValue flag => "error: no value is expected for `--" ++ flag ++ "`\n\n"
  | conflict option => "error: `--" ++ option ++ "` cannot be used here\n\n"

def Interruption.outcome : Interruption → Outcome
  | help => ⟨Outcome.success, usage, ""⟩
  | version => ⟨Outcome.success, "stylint " ++ CommandLine.version ++ "\n", ""⟩
  | i => ⟨Outcome.refusal, "", i.message ++ usage⟩

namespace Surroundings

def failureLine (s : Surroundings) (message : String) : String :=
  Terminal.errorLabel s.colors ++ " " ++ message ++ "\n"

def noConfigLine (s : Surroundings) : String :=
  Terminal.noteLabel s.colors ++ " No stylint.toml|yaml|yml|json found; no rules enabled.\n"

def workingDirectory (s : Surroundings) : String :=
  "/" ++ "/".intercalate s.fileSystem.workingDirectory

/-- The configuration to use, and what is told about it. A path that is given counts; otherwise the
nearest configuration file does. -/
def config (s : Surroundings) (path : Option String) : Except RequestError (Config × String) :=
  match path with
  | some path => (Config.load s.fileSystem path).map fun c => (c, "")
  | none =>
    match Config.discover s.fileSystem.isFile s.workingDirectory with
    | some path => (Config.load s.fileSystem path).map fun c => (c, "")
    | none => .ok (.empty, s.noConfigLine)

/-- The text to lint, if none or one is given, or standard input. -/
def code (s : Surroundings) (a : LintArguments) : Except IoError (Option String) :=
  if a.stdin then s.stdin.map some else .ok a.code

def listing (s : Surroundings) : Listing :=
  ⟨s.colors, some s.workingDirectory⟩

def endLine (text : String) : String :=
  if text.toList.getLast? = some '\n' then text else text ++ "\n"

/-- A run of the linter. The first thing that is wrong makes it fail. -/
def lint (s : Surroundings) (a : LintArguments) : Outcome :=
  match s.config a.config with
  | .error e => ⟨Outcome.failure, "", s.failureLine e.message⟩
  | .ok (config, told) =>
    let failed (message : String) : Outcome :=
      ⟨Outcome.failure, "", told ++ s.failureLine message⟩
    match s.code a with
    | .error e => failed ("failed to read stdin: " ++ e.message)
    | .ok code =>
      match Formatter.ofName s.listing a.formatter with
      | .error e => failed e.message
      | .ok formatter =>
        let options : Options :=
          ⟨config, code, a.stdinFilename, a.files, a.dialect, some formatter, a.allowEmptyInput⟩
        match SheetLint.lint .builtIn s.fileSystem options with
        | .error e => failed e.message
        | .ok out =>
          let exit := if out.report.errored then Outcome.refusal else Outcome.success
          ⟨exit, endLine out.output, told⟩

def rulesJson : Json :=
  .array (Registry.builtIn.descriptions.map fun d =>
    .object [("name", .string d.1), ("description", .string d.2)])

def rules (s : Surroundings) (output : Option String) : Outcome :=
  let text :=
    if output = some "json" then String.ofList rulesJson.pretty ++ "\n"
    else
      String.join (Registry.builtIn.descriptions.map fun d =>
        Terminal.infoLabel s.colors ++ " " ++ d.1 ++ " — " ++ d.2 ++ "\n")
  ⟨Outcome.success, text, ""⟩

def run (s : Surroundings) : Command → Outcome
  | .version => ⟨Outcome.success, version ++ "\n", ""⟩
  | .rules output => s.rules output
  | .lint a => s.lint a

end Surroundings

def run (s : Surroundings) (arguments : List String) : Outcome :=
  match Invocation.ofArguments arguments with
  | .error i => i.outcome
  | .ok invocation => s.run invocation.command

end SheetLint.CommandLine
