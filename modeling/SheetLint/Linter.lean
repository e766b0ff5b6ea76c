import SheetLint.Check
import SheetLint.Formatter

/-!
A lint call: validating what is asked for, expanding it into inputs, checking each and formatting
the report. Only what is wrong with the request itself, or with the formatter, makes a call fail.
-/

namespace SheetLint

structure Options where
  config : Config
  code : Option String
  codeFileName : Option String
  files : List String
  dialect : Option String
  formatter : Option Formatter
  allowEmptyInput : Bool

namespace Options

def ofConfig (config : Config) : Options :=
  ⟨config, none, none, [], none, none, false⟩

end Options

structure Request where
  source : Source
  dialect : Option Dialect
  plan : List PlannedRule
  allowEmptyInput : Bool

structure LintOutput where
  output : String
  report : Report
deriving DecidableEq, Repr

inductive LintError where
  | request (error : RequestError)
  | formatter (error : FormatterError)
deriving DecidableEq, Repr

def LintError.message : LintError → String
  | request e => e.message
  | formatter e => e.message

namespace Request

def sourceOf (o : Options) : Except RequestError Source :=
  match o.code, o.files with
  | some _, _ :: _ => .error .conflictingInput
  | none, [] => .error .missingInput
  | some text, [] => .ok (.code text o.codeFileName)
  | none, patterns => .ok (.files patterns)

def dialectOf (o : Options) : Except RequestError (Option Dialect) :=
  match o.dialect with
  | none => .ok none
  | some name =>
    match Dialect.ofName? name with
    | some d => .ok (some d)
    | none => .error (.unknownDialect name)

def ofOptions (registry : Registry) (o : Options) : Except RequestError Request :=
  match sourceOf o with
  | .error e => .error e
  | .ok source =>
    match dialectOf o with
    | .error e => .error e
    | .ok dialect =>
      (Plan.ofConfig registry o.config).map fun plan => ⟨source, dialect, plan, o.allowEmptyInput⟩

/-- The inputs of a request. Patterns that match nothing are an error unless that is allowed. -/
def inputs (fs : FileSystem) (r : Request) : Except RequestError (List Input) :=
  match Input.expand fs r.source (r.dialect.map Dialect.name) with
  | .error e => .error e
  | .ok [] =>
    match r.source with
    | .files patterns => if r.allowEmptyInput then .ok [] else .error (.noFilesMatched patterns)
    | .code _ _ => .ok []
  | .ok (i :: is) => .ok (i :: is)

def run (fs : FileSystem) (r : Request) : Except RequestError Report :=
  (r.inputs fs).map fun inputs => .ofResults (inputs.map (Check.checkInput r.plan))

end Request

/-- A whole lint call. Without a formatter the output is JSON. -/
def lint (registry : Registry) (fs : FileSystem) (o : Options) : Except LintError LintOutput :=
  match Request.ofOptions registry o with
  | .error e => .error (.request e)
  | .ok request =>
    match request.run fs with
    | .error e => .error (.request e)
    | .ok report =>
      match (o.formatter.getD .json) report with
      | .error e => .error (.formatter e)
      | .ok output => .ok ⟨output, report⟩

end SheetLint
