/-!
The arguments of the command line. Arguments come in levels: those in front of the name of a
command, and those behind it. `Level.read?` reads the arguments of one level by its grammar, and
`Invocation.ofArguments` says what they ask for.

An option's value is only taken to heart when the next option, file or the end comes, so what is
wrong with it may be told after something that is wrong further on.
-/

namespace SheetLint.CommandLine

/-- Why arguments do not ask for a command to be run. -/
inductive Interruption where
  | help
  | version
  | noArguments
  | missingCommand
  | unknownCommand (name : String)
  | unknownArgument (argument : String)
  | missingValue (option : String)
  /-- A flag with a value. -/
  | unexpectedValue (flag : String)
  /-- An option that is given twice, or that excludes another. -/
  | conflict (option : String)
deriving DecidableEq, Repr

inductive Flag where
  | verbose
  | debug
  | stdin
  | allowEmptyInput
  | help
  | version
deriving DecidableEq, Repr

namespace Flag

def name : Flag → String
  | verbose => "verbose"
  | debug => "debug"
  | stdin => "stdin"
  | allowEmptyInput => "allow-empty-input"
  | help => "help"
  | version => "version"

def letter? : Flag → Option Char
  | verbose => some 'v'
  | help => some 'h'
  | version => some 'V'
  | _ => none

end Flag

inductive Setting where
  | code
  | stdinFilename
  | config
  | dialect
  | formatter
  | output
deriving DecidableEq, Repr

namespace Setting

def name : Setting → String
  | code => "code"
  | stdinFilename => "stdin-filename"
  | config => "config"
  | dialect => "syntax"
  | formatter => "formatter"
  | output => "output"

end Setting

/-- Which arguments a level may have. -/
structure Level where
  flags : List Flag
  settings : List Setting
  takesFiles : Bool
  commands : List String

structure Pending where
  setting : Setting
  value : Option String
deriving DecidableEq, Repr

structure Given where
  flags : List Flag
  settings : List (Setting × String)
  files : List String
  pending : Option Pending
deriving DecidableEq, Repr

namespace Given

def none : Given := ⟨[], [], [], .none⟩

def set (g : Given) (s : Setting) (value : String) : Except Interruption Given :=
  if g.settings.any (·.1 = s) then .error (.conflict s.name)
  else .ok { g with settings := g.settings ++ [(s, value)] }

def settle (g : Given) : Except Interruption Given :=
  match g.pending with
  | .none => .ok g
  | some ⟨s, .none⟩ => .error (.missingValue s.name)
  | some ⟨s, some value⟩ => { g with pending := .none }.set s value

def raise (g : Given) (f : Flag) : Except Interruption Given :=
  match g.settle with
  | .error e => .error e
  | .ok g =>
    match f with
    | .help => .error .help
    | .version => .error .version
    | f =>
      if g.flags.contains f then .error (.conflict f.name)
      else .ok { g with flags := g.flags ++ [f] }

def addFile (g : Given) (file : String) : Except Interruption Given :=
  g.settle.map fun g => { g with files := g.files ++ [file] }

def awaitsValue (g : Given) : Bool :=
  match g.pending with
  | some ⟨_, .none⟩ => true
  | _ => false

def value? (g : Given) (s : Setting) : Option String :=
  (g.settings.find? (·.1 = s)).map (·.2)

end Given

namespace Level

def readLetters (l : Level) (g : Given) : List Char → Except Interruption Given
  | [] => .ok g
  | c :: cs =>
    match l.flags.find? (·.letter? = some c) with
    | none => .error (.unknownArgument (String.ofList ['-', c]))
    | some f =>
      match g.raise f with
      | .error e => .error e
      | .ok g => readLetters l g cs

/-- Reads an option behind two dashes, with the value that is attached to it. -/
def readLong (l : Level) (g : Given) (name : String) (attached : Option String) :
    Except Interruption Given :=
  match l.flags.find? (·.name = name), l.settings.find? (·.name = name), attached with
  | some f, _, some _ => .error (.unexpectedValue f.name)
  | some f, _, none => g.raise f
  | none, some s, some value =>
    match g.settle with
    | .error e => .error e
    | .ok g => g.set s value
  | none, some s, none => g.settle.map fun g => { g with pending := some ⟨s, none⟩ }
  | none, none, _ => .error (.unknownArgument ("--" ++ name))

def readPlain (l : Level) (g : Given) (afterDashes : Bool) (argument : String) :
    Except Interruption Given :=
  if l.takesFiles then g.addFile argument
  else if l.commands.isEmpty || (afterDashes && l.commands.contains argument) then
    .error (.unknownArgument argument)
  else .error (.unknownCommand argument)

def readOne (l : Level) (g : Given) (argument : String) : Except Interruption Given :=
  match argument.toList with
  | '-' :: '-' :: cs =>
    match cs.dropWhile (· != '=') with
    | [] => l.readLong g (String.ofList cs) none
    | _ :: value =>
      l.readLong g (String.ofList (cs.takeWhile (· != '='))) (some (String.ofList value))
  | '-' :: c :: cs => l.readLetters g (c :: cs)
  | _ =>
    match g.pending with
    | some ⟨s, none⟩ => .ok { g with pending := some ⟨s, some argument⟩ }
    | _ => l.readPlain g false argument

/-- Reads arguments behind two dashes that stand alone. None of them is an option. -/
def readRest (l : Level) (g : Given) : List String → Except Interruption Given
  | [] => .ok g
  | a :: more =>
    match l.readPlain g true a with
    | .error e => .error e
    | .ok g => readRest l g more

/-- Reads the arguments of a level, up to the name of a command and what follows that. -/
def read (l : Level) (g : Given) :
    List String → Except Interruption (Given × Option (String × List String))
  | [] => .ok (g, none)
  | a :: more =>
    if !g.awaitsValue && l.commands.contains a then .ok (g, some (a, more))
    else if a = "--" then (l.readRest g more).map fun g => (g, none)
    else
      match l.readOne g a with
      | .error e => .error e
      | .ok g => read l g more

end Level

structure LintArguments where
  files : List String
  code : Option String
  stdin : Bool
  stdinFilename : Option String
  config : Option String
  dialect : Option String
  formatter : String
  allowEmptyInput : Bool
deriving DecidableEq, Repr

inductive Command where
  | version
  | rules (output : Option String)
  | lint (arguments : LintArguments)
deriving DecidableEq, Repr

structure Invocation where
  verbose : Bool
  debug : Bool
  command : Command
deriving DecidableEq, Repr

namespace Level

def commonFlags : List Flag := [.verbose, .debug, .help]

def top : Level :=
  ⟨.version :: commonFlags, [], false, ["version", "lint", "rules", "help"]⟩

def ofVersion : Level := ⟨commonFlags, [], false, []⟩

def ofRules : Level := ⟨commonFlags, [.output], false, []⟩

def ofLint : Level :=
  ⟨[.stdin, .allowEmptyInput] ++ commonFlags,
    [.code, .stdinFilename, .config, .dialect, .formatter], true, []⟩

end Level

namespace LintArguments

def defaultFormatter : String := "json"

/-- What the arguments ask for. A given text, standard input and files exclude each other. -/
def ofGiven (g : Given) : Except Interruption LintArguments :=
  let code := g.value? .code
  let stdin := g.flags.contains .stdin
  if code.isSome && (stdin || !g.files.isEmpty) then .error (.conflict Setting.code.name)
  else if stdin && !g.files.isEmpty then .error (.conflict Flag.stdin.name)
  else
    .ok ⟨g.files, code, stdin, g.value? .stdinFilename, g.value? .config, g.value? .dialect,
      (g.value? .formatter).getD defaultFormatter, g.flags.contains .allowEmptyInput⟩

end LintArguments

namespace Invocation

def readLast (l : Level) (arguments : List String) : Except Interruption Given :=
  match l.read .none arguments with
  | .error e => .error e
  | .ok (g, _) => g.settle

def commandOf (name : String) (arguments : List String) : Except Interruption (Command × Given) :=
  if name = "version" then
    (readLast .ofVersion arguments).map fun g => (.version, g)
  else if name = "rules" then
    (readLast .ofRules arguments).map fun g => (.rules (g.value? .output), g)
  else
    match readLast .ofLint arguments with
    | .error e => .error e
    | .ok g => (LintArguments.ofGiven g).map fun a => (.lint a, g)

/-- The topic that help is asked for must be a command, without anything behind it. -/
def helpOn : List String → Interruption
  | [] => .help
  | [topic] => if Level.top.commands.contains topic then .help else .unknownCommand topic
  | topic :: more :: _ =>
    if Level.top.commands.contains topic then .unknownCommand more else .unknownCommand topic

def ofArguments (arguments : List String) : Except Interruption Invocation :=
  match Level.top.read .none arguments with
  | .error e => .error e
  | .ok (g, none) => .error (if g.flags.isEmpty then .noArguments else .missingCommand)
  | .ok (g, some (name, more)) =>
    if name = "help" then .error (helpOn more)
    else
      match commandOf name more with
      | .error e => .error e
      | .ok (command, inner) =>
        let given (f : Flag) := g.flags.contains f || inner.flags.contains f
        .ok ⟨given .verbose, given .debug, command⟩

end Invocation

end SheetLint.CommandLine
