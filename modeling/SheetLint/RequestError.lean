import SheetLint.Dialect
import SheetLint.FileSystem
import SheetLint.Glob.Pattern

/-!
Why a request is refused as a whole. What is wrong with a single input never refuses a request.
-/

namespace SheetLint

inductive RequestError where
  | missingInput
  | conflictingInput
  | unknownDialect (name : String)
  | unknownRule (name : String)
  | invalidRuleOption (rule reason : String)
  | invalidRuleSetting (rule reason : String)
  | invalidGlob (pattern : String) (error : Glob.PatternError)
  | noFilesMatched (patterns : List String)
  | unreadableConfig (path : String) (error : IoError)
  | unparsableConfig (path : String)
deriving DecidableEq, Repr

/-- The wording of a refusal. What is wrong inside a configuration file is not told. -/
def RequestError.message : RequestError → String
  | missingInput => "no input given: pass either `code` or `files`"
  | conflictingInput => "`code` and `files` are mutually exclusive"
  | unknownDialect name =>
    "unknown syntax \"" ++ name ++ "\" (expected one of: "
      ++ ", ".intercalate (Dialect.all.map Dialect.name) ++ ")"
  | unknownRule name => "unknown rule \"" ++ name ++ "\""
  | invalidRuleOption rule reason => "invalid option for rule \"" ++ rule ++ "\": " ++ reason
  | invalidRuleSetting rule reason => "invalid setting for rule \"" ++ rule ++ "\": " ++ reason
  | invalidGlob pattern error => "invalid glob pattern \"" ++ pattern ++ "\": " ++ error.message
  | noFilesMatched patterns =>
    "no files matching the pattern(s): " ++ ", ".intercalate patterns
  | unreadableConfig path error => "failed to read config " ++ path ++ ": " ++ error.message
  | unparsableConfig path => "failed to parse config " ++ path ++ ": "

end SheetLint
