import SheetLint.Config
import SheetLint.Registry
import SheetLint.RequestError

namespace SheetLint

structure PlannedRule where
  rule : Rule
  primary : Json
  severity : Severity
  /-- The text that replaces those of the rule's findings. -/
  message : Option String

namespace Plan

def settings : Entries Json → Except RequestError (List (String × Setting))
  | [] => .ok []
  | (name, value) :: entries =>
    match Setting.ofJson value with
    | .error e => .error (.invalidRuleSetting name e.message)
    | .ok s => (settings entries).map ((name, s) :: ·)

def ofSetting (registry : Registry) (default : Severity) (name : String) (setting : Setting) :
    Except RequestError (Option PlannedRule) :=
  match registry.get? name with
  | none => .error (.unknownRule name)
  | some rule =>
    match setting with
    | .off => .ok none
    | .on primary severity message =>
      match rule.accepts primary with
      | .error reason => .error (.invalidRuleOption name reason)
      | .ok _ => .ok (some ⟨rule, primary, severity.getD default, message⟩)

def ofSettings (registry : Registry) (default : Severity) :
    List (String × Setting) → Except RequestError (List PlannedRule)
  | [] => .ok []
  | (name, setting) :: more =>
    match ofSetting registry default name setting with
    | .error e => .error e
    | .ok planned => (ofSettings registry default more).map (planned.toList ++ ·)

/-- The plan of a configuration. Findings are errors unless the configuration says otherwise. -/
def ofConfig (registry : Registry) (config : Config) : Except RequestError (List PlannedRule) :=
  match settings config.rules with
  | .error e => .error e
  | .ok all => ofSettings registry (config.defaultSeverity.getD .error) all

end Plan

end SheetLint
