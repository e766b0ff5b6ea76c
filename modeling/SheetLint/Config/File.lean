import SheetLint.Config
import SheetLint.Json.Draft
import SheetLint.RequestError
import SheetLint.Toml.Document
import SheetLint.Yaml.Value

/-!
Configuration files. The ending of a file's name says in which format it is written; all formats
name the same two members, and other members mean nothing. What is written twice, or is no
configuration, is refused without a reason.
-/

namespace SheetLint.Config

inductive Format where
  | toml
  | yaml
  | json
deriving DecidableEq, Repr

/-- The format of a file. An ending that is not known means JSON. -/
def Format.ofPath (path : String) : Format :=
  match Path.extension? path with
  | none => json
  | some ending =>
    if Text.eqIgnoringCase ending "toml" then toml
    else if Text.eqIgnoringCase ending "yaml" || Text.eqIgnoringCase ending "yml" then yaml
    else json

/-- How the parts of a configuration are read from the values of a format. -/
structure Parts (α : Type) where
  rules? : α → Option (Entries Json)
  severity? : α → Option (Option Severity)
  /-- Whether a member that means nothing can be passed over. -/
  passes : α → Bool

structure Partial where
  rules : Option (Entries Json)
  severity : Option (Option Severity)

/-- Takes in members, in their order. -/
def Parts.takeMembers? {α : Type} (r : Parts α) (p : Partial) : List (String × α) → Option Partial
  | [] => some p
  | (name, value) :: members =>
    if name = "rules" then
      match p.rules, r.rules? value with
      | none, some rules => takeMembers? r { p with rules := some rules } members
      | _, _ => none
    else if name = "defaultSeverity" then
      match p.severity, r.severity? value with
      | none, some severity => takeMembers? r { p with severity := some severity } members
      | _, _ => none
    else if r.passes value then takeMembers? r p members
    else none

def Parts.config? {α : Type} (r : Parts α) (members : List (String × α)) : Option Config :=
  (r.takeMembers? ⟨none, none⟩ members).map fun p => ⟨p.rules.getD [], p.severity.getD none⟩

/-! ## TOML -/

/-- A severity in a TOML document: its name, or a table whose one entry has that name and is
empty. -/
def tomlSeverity? : Toml.Value → Option Severity
  | .string name => Severity.ofName? name
  | .table [(name, .table [])] => Severity.ofName? name
  | .table [(name, .array [])] => Severity.ofName? name
  | _ => none

/-- The parts of a configuration in TOML. A date stands for an object and so is a row of rules. -/
def tomlParts : Parts Toml.Value where
  rules? v :=
    match v.toJson? with
    | some (.object members) => some members
    | _ => none
  severity? v := (tomlSeverity? v).map some
  passes := Toml.Value.fits

def ofToml? (text : String) : Option Config :=
  (Toml.entriesOfText? text).bind tomlParts.config?

/-! ## YAML -/

def taggedSeverity? (tag text : String) : Option Severity :=
  if text.isEmpty || Yaml.Scalar.isNull text then
    Severity.ofName? (String.ofList (tag.toList.drop 1))
  else none

/-- A severity in a YAML document: its name, or a tag of the name on nothing. -/
def yamlSeverity? : Yaml.Node → Option (Option Severity)
  | .scalar none plain text =>
    if plain && (text.isEmpty || Yaml.Scalar.isNull text) then some none
    else (Severity.ofName? text).map some
  | .scalar (some tag) plain text =>
    if Yaml.Scalar.isLocal tag then
      if plain then (taggedSeverity? tag text).map some else none
    else if plain && tag == Yaml.Scalar.commonTag "null" then
      if Yaml.Scalar.isNull text then some none else none
    else (Severity.ofName? text).map some
  | _ => none

def yamlParts (d : Yaml.Document) : Parts Yaml.Node where
  rules? := d.entriesOf?
  severity? n := (d.follow? d.maxAliases n).bind fun r => yamlSeverity? r.1
  passes _ := true

def ofYaml? (text : String) : Option Config :=
  match Yaml.Document.ofText? text with
  | none => none
  | some d => d.pairs?.bind (yamlParts d).config?

/-! ## JSON -/

/-- A severity in a JSON text: null, its name, or an object whose one member has that name and
holds null. -/
def jsonSeverity? : Json.Draft → Option (Option Severity)
  | .null => some none
  | .string (some name) => (Severity.ofName? name).map some
  | .object [(some name, .null)] => (Severity.ofName? name).map some
  | _ => none

def jsonParts : Parts Json.Draft where
  rules? d :=
    match d.settle? (Json.maxDepth - 1) with
    | some (.object members) => some members
    | _ => none
  severity? := jsonSeverity?
  passes _ := true

/-- The configuration of a JSON text: an object, or a list of its two values. -/
def ofJsonText? (text : String) : Option Config :=
  match Json.Draft.ofChars? text.toList with
  | some (.object members) =>
    ((members.mapM fun (m : Option String × Json.Draft) => m.1.map fun name => (name, m.2))).bind jsonParts.config?
  | some (.array [rules, severity]) =>
    match jsonParts.rules? rules, jsonSeverity? severity with
    | some rules, some severity => some ⟨rules, severity⟩
    | _, _ => none
  | _ => none

/-! ## Files -/

def ofText? (format : Format) (text : String) : Option Config :=
  match format with
  | .toml => ofToml? text
  | .yaml => ofYaml? text
  | .json => ofJsonText? text

def load (fs : FileSystem) (path : String) : Except RequestError Config :=
  match fs.read path with
  | .error e => .error (.unreadableConfig path e)
  | .ok text =>
    match ofText? (.ofPath path) text with
    | none => .error (.unparsableConfig path)
    | some config => .ok config

end SheetLint.Config
