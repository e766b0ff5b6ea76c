import SheetLint.Config.Decode

/-!
Configurations: which rules run, with which options, and how grave their findings are. A rule's
setting is kept as it was written and interpreted when it is needed.
-/

namespace SheetLint

structure Config where
  /-- The setting of each rule, in the order in which the rules were first named. -/
  rules : Entries Json
  defaultSeverity : Option Severity

namespace Config

def empty : Config := ⟨[], none⟩

def decodeRules : Json → Except DecodeError (Entries Json)
  | .object members => .ok members
  | j => .error (.type j "a map")

/-- Takes in the members of an object, in their order; members with other names mean nothing. -/
def decodeMembers (config : Config) : List (String × Json) → Except DecodeError Config
  | [] => .ok config
  | (name, value) :: members =>
    if name = "rules" then
      match decodeRules value with
      | .error e => .error e
      | .ok rules => decodeMembers { config with rules } members
    else if name = "defaultSeverity" then
      match Decode.optional Decode.severity value with
      | .error e => .error e
      | .ok defaultSeverity => decodeMembers { config with defaultSeverity } members
    else decodeMembers config members

/-- The configuration of an object, or of a list with the same two values. -/
def decode : Json → Except DecodeError Config
  | .object members => decodeMembers empty members
  | .array [] => .error (.length 1 "struct Config with 2 elements")
  | .array (rules :: rest) =>
    match decodeRules rules, rest with
    | .error e, _ => .error e
    | .ok _, [] => .error (.length 1 "struct Config with 2 elements")
    | .ok rules, severity :: more =>
      match Decode.optional Decode.severity severity with
      | .error e => .error e
      | .ok defaultSeverity =>
        if more.isEmpty then .ok ⟨rules, defaultSeverity⟩
        else .error (.length (more.length + 2) "fewer elements in array")
  | j => .error (.type j "struct Config")

end Config

/-- What the setting of a rule means. -/
inductive Setting where
  | off
  | on (primary : Json) (severity : Option Severity) (message : Option String)

namespace Setting

structure Secondary where
  severity : Option Severity
  message : Option String

def decodeSecondary (s : Secondary) : List (String × Json) → Except DecodeError Secondary
  | [] => .ok s
  | (name, value) :: members =>
    if name = "severity" then
      match Decode.optional Decode.severity value with
      | .error e => .error e
      | .ok severity => decodeSecondary { s with severity } members
    else if name = "message" then
      match Decode.optional Decode.string value with
      | .error e => .error e
      | .ok message => decodeSecondary { s with message } members
    else decodeSecondary s members

def turnsOff : Json → Bool
  | .null => true
  | .bool false => true
  | _ => false

/-- Interprets a setting. A pair whose second part is an object holds the primary option and the
secondary ones; anything else is a primary option by itself. -/
def ofJson (value : Json) : Except DecodeError Setting :=
  match value with
  | .array [primary, .object members] =>
    if turnsOff primary then .ok .off
    else
      match decodeSecondary ⟨none, none⟩ members with
      | .error e => .error e
      | .ok s => .ok (.on primary s.severity s.message)
  | value => if turnsOff value then .ok .off else .ok (.on value none none)

end Setting

end SheetLint
