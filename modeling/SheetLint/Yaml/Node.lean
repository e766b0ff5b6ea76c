import SheetLint.Yaml.Token

/-!
The nodes of YAML documents. `Document.ofText?` builds them from the tokens with a stack of open
collections. A text holds one document at most.
-/

namespace SheetLint.Yaml

inductive Node where
  | scalar (tag : Option String) (plain : Bool) (text : String)
  | sequence (tag : Option String) (items : List Node)
  | mapping (tag : Option String) (pairs : List (Node × Node))
  | reference (anchor : Nat)
deriving Repr

namespace Node

def absent (tag : Option String) : Node := scalar tag true ""

mutual

/-- The number of events that lay a node out: one for a scalar or an alias, and two around the
contents of a collection. -/
def events : Node → Nat
  | scalar _ _ _ => 1
  | reference _ => 1
  | sequence _ items => itemEvents items + 2
  | mapping _ pairs => pairEvents pairs + 2

def itemEvents : List Node → Nat
  | [] => 0
  | n :: ns => events n + itemEvents ns

def pairEvents : List (Node × Node) → Nat
  | [] => 0
  | p :: ps => events p.1 + events p.2 + pairEvents ps

end

end Node

structure Properties where
  anchor : Option Nat
  tag : Option String

def Properties.none : Properties := ⟨.none, .none⟩

def Properties.any (p : Properties) : Bool :=
  p.anchor.isSome || p.tag.isSome

/-- A collection that is still open, and what its next node will be. Contents are last first. -/
inductive Frame where
  | blockSequence (p : Properties) (items : List Node)
  /-- A sequence at the column of the key that it belongs to, which has no end of its own. -/
  | bareSequence (p : Properties) (items : List Node)
  | blockKey (p : Properties) (pairs : List (Node × Node))
  | blockValue (p : Properties) (pairs : List (Node × Node)) (key : Node)
  | flowSequence (p : Properties) (items : List Node)
  | singleKey (p : Properties) (items : List Node)
  | singleValue (p : Properties) (items : List Node) (key : Node)
  | flowKey (p : Properties) (pairs : List (Node × Node))
  | flowLoneKey (p : Properties) (pairs : List (Node × Node))
  | flowValue (p : Properties) (pairs : List (Node × Node)) (key : Node)

inductive Expected where
  /-- Directives, the start of a document, or the end of the text. -/
  | document (version : Bool) (handles : List (String × String))
  /-- A node. It may be left out in front of the tokens that `mayBeAbsent` accepts. -/
  | node (mayBeAbsent : Token → Bool) (p : Properties)
  /-- An item or the end of the flow sequence on top of the stack. -/
  | flowItem
  /-- A pair or the end of the flow mapping on top of the stack. -/
  | flowPair
  /-- What stands behind a node. -/
  | after
  | done

structure Composer where
  expected : Expected
  frames : List Frame
  root : Option Node
  handles : List (String × String)
  /-- The number of each anchor, latest first. -/
  names : List (String × Nat)
  /-- The nodes that have anchors and are complete. -/
  anchored : List (Nat × Node)

namespace Composer

/-- The handles that tags have without directives. -/
def commonHandles : List (String × String) :=
  [("!", "!"), ("!!", "tag:yaml.org,2002:")]

def start : Composer := ⟨.document false [], [], none, commonHandles, [], []⟩

/-! ## Completing nodes -/

def place (c : Composer) (n : Node) : Composer :=
  let c := { c with expected := .after }
  match c.frames with
  | [] => { c with root := some n }
  | .blockSequence p items :: fs => { c with frames := .blockSequence p (n :: items) :: fs }
  | .bareSequence p items :: fs => { c with frames := .bareSequence p (n :: items) :: fs }
  | .blockKey p pairs :: fs => { c with frames := .blockValue p pairs n :: fs }
  | .blockValue p pairs k :: fs => { c with frames := .blockKey p ((k, n) :: pairs) :: fs }
  | .flowSequence p items :: fs => { c with frames := .flowSequence p (n :: items) :: fs }
  | .singleKey p items :: fs => { c with frames := .singleValue p items n :: fs }
  | .singleValue p items k :: fs =>
    { c with frames := .flowSequence p (.mapping none [(k, n)] :: items) :: fs }
  | .flowKey p pairs :: fs => { c with frames := .flowValue p pairs n :: fs }
  | .flowLoneKey p pairs :: fs =>
    { c with frames := .flowKey p ((n, .absent none) :: pairs) :: fs }
  | .flowValue p pairs k :: fs => { c with frames := .flowKey p ((k, n) :: pairs) :: fs }

def complete (c : Composer) (anchor : Option Nat) (n : Node) : Composer :=
  match anchor with
  | none => c.place n
  | some a => { c with anchored := (a, n) :: c.anchored }.place n

def closeSequence (c : Composer) (p : Properties) (items : List Node) (fs : List Frame) :
    Composer :=
  { c with frames := fs }.complete p.anchor (.sequence p.tag items.reverse)

def closeMapping (c : Composer) (p : Properties) (pairs : List (Node × Node)) (fs : List Frame) :
    Composer :=
  { c with frames := fs }.complete p.anchor (.mapping p.tag pairs.reverse)

def skip (c : Composer) (p : Properties) : Composer :=
  c.complete p.anchor (.absent p.tag)

/-! ## Where nodes may be left out -/

/-- Behind the mark that starts a document. -/
def endsDocument : Token → Bool
  | .version _ _ => true
  | .tagHandle _ _ => true
  | .documentStart => true
  | .documentEnd => true
  | .streamEnd => true
  | _ => false

/-- Behind the dash of a block sequence. -/
def endsBlockItem : Token → Bool
  | .blockEntry => true
  | .blockEnd => true
  | _ => false

/-- Behind the mark of a key or a value in a block mapping. -/
def endsBlockPart : Token → Bool
  | .key => true
  | .value => true
  | .blockEnd => true
  | _ => false

/-- Behind the dash of a sequence without an end of its own. -/
def endsBareItem (t : Token) : Bool :=
  endsBlockItem t || endsBlockPart t

/-- Behind the mark of a key in a flow mapping. -/
def endsFlowKey : Token → Bool
  | .value => true
  | .flowEntry => true
  | .flowMappingEnd => true
  | _ => false

/-- Behind the mark of a value in a flow mapping. -/
def endsFlowValue : Token → Bool
  | .flowEntry => true
  | .flowMappingEnd => true
  | _ => false

/-- Behind the mark of the value of a single pair. -/
def endsSingleValue : Token → Bool
  | .flowEntry => true
  | .flowSequenceEnd => true
  | _ => false

def expectNode (c : Composer) (mayBeAbsent : Token → Bool) : Composer :=
  { c with expected := .node mayBeAbsent .none }

/-! ## The tokens behind nodes -/

def atBlockKey? (c : Composer) (p : Properties) (pairs : List (Node × Node)) (fs : List Frame) :
    Token → Option Composer
  | .key => some (c.expectNode endsBlockPart)
  | .blockEnd => some (c.closeMapping p pairs fs)
  | _ => none

def atBlockValue? (c : Composer) (p : Properties) (pairs : List (Node × Node)) (k : Node)
    (fs : List Frame) (t : Token) : Option Composer :=
  if t = .value then some (c.expectNode endsBlockPart)
  else
    let pairs := (k, .absent none) :: pairs
    atBlockKey? { c with frames := .blockKey p pairs :: fs } p pairs fs t

def afterFlowPair? (c : Composer) (p : Properties) (pairs : List (Node × Node)) (fs : List Frame) :
    Token → Option Composer
  | .flowEntry => some { c with expected := .flowPair }
  | .flowMappingEnd => some (c.closeMapping p pairs fs)
  | _ => none

def afterFlowItem? (c : Composer) (p : Properties) (items : List Node) (fs : List Frame) :
    Token → Option Composer
  | .flowEntry => some { c with expected := .flowItem }
  | .flowSequenceEnd => some (c.closeSequence p items fs)
  | _ => none

/-- A token behind a node that does not belong to a sequence without an end of its own. -/
def afterNode? (c : Composer) (t : Token) : Option Composer :=
  match c.frames with
  | [] =>
    match t with
    | .documentEnd => some c
    | .streamEnd => some { c with expected := .done }
    | _ => none
  | .blockSequence p items :: fs =>
    match t with
    | .blockEntry => some (c.expectNode endsBlockItem)
    | .blockEnd => some (c.closeSequence p items fs)
    | _ => none
  | .bareSequence _ _ :: _ => none
  | .blockKey p pairs :: fs => atBlockKey? c p pairs fs t
  | .blockValue p pairs k :: fs => atBlockValue? c p pairs k fs t
  | .flowSequence p items :: fs => afterFlowItem? c p items fs t
  | .singleKey _ _ :: _ => none
  | .singleValue p items k :: fs =>
    if t = .value then some (c.expectNode endsSingleValue)
    else
      let items := .mapping none [(k, .absent none)] :: items
      afterFlowItem? { c with frames := .flowSequence p items :: fs } p items fs t
  | .flowKey p pairs :: fs => afterFlowPair? c p pairs fs t
  | .flowLoneKey _ _ :: _ => none
  | .flowValue p pairs k :: fs =>
    if t = .value then some (c.expectNode endsFlowValue)
    else
      let pairs := (k, .absent none) :: pairs
      afterFlowPair? { c with frames := .flowKey p pairs :: fs } p pairs fs t

/-- A token behind a node. What cannot go on a sequence without an end of its own ends it. -/
def after? (c : Composer) (t : Token) : Option Composer :=
  match c.frames with
  | .bareSequence p items :: fs =>
    if t = .blockEntry then some (c.expectNode endsBareItem)
    else (c.closeSequence p items fs).afterNode? t
  | _ => c.afterNode? t

/-! ## The tokens of nodes -/

def tagOf? (c : Composer) (handle suffix : String) : Option String :=
  if handle.isEmpty then some suffix
  else ((c.handles.find? (·.1 = handle)).map (·.2)).map (· ++ suffix)

def openWith (c : Composer) (f : Frame) (e : Expected) : Composer :=
  { c with frames := f :: c.frames, expected := e }

/-- Whether the innermost open collection is a block mapping, so that a sequence may stand at its
column. -/
def inBlockMapping (c : Composer) : Bool :=
  match c.frames with
  | .blockKey _ _ :: _ => true
  | .blockValue _ _ _ :: _ => true
  | _ => false

def inBlock (c : Composer) : Bool :=
  match c.frames with
  | [] => true
  | .blockSequence _ _ :: _ => true
  | .bareSequence _ _ :: _ => true
  | .blockKey _ _ :: _ => true
  | .blockValue _ _ _ :: _ => true
  | _ => false

def atSingleKey (c : Composer) : Bool :=
  match c.frames with
  | .singleKey _ _ :: _ => true
  | _ => false

/-- Whether a single pair may lack its key in front of a token, which then counts no more. -/
def endsSingleKey (t : Token) : Bool :=
  t = .value || endsSingleValue t

def atNode? (c : Composer) (mayBeAbsent : Token → Bool) (p : Properties) (t : Token) :
    Option Composer :=
  let skipped : Option Composer :=
    if c.atSingleKey && !p.any && endsSingleKey t then some (c.skip p)
    else if p.any || mayBeAbsent t then (c.skip p).after? t
    else none
  match t with
  | .anchor name =>
    if p.anchor.isSome then none
    else
      let n := c.names.length
      some { c with
        names := (name, n) :: c.names, expected := .node mayBeAbsent { p with anchor := some n } }
  | .tag handle suffix =>
    if p.tag.isSome then none
    else
      (c.tagOf? handle suffix).map fun tag =>
        { c with expected := .node mayBeAbsent { p with tag := some tag } }
  | .reference name =>
    if p.any then none
    else (c.names.find? (·.1 = name)).map fun e => c.complete none (.reference e.2)
  | .scalar plain text =>
    let tag := p.tag.filter (· != "!")
    some (c.complete p.anchor (.scalar tag plain text))
  | .flowSequence => some (c.openWith (.flowSequence p []) .flowItem)
  | .flowMapping => some (c.openWith (.flowKey p []) .flowPair)
  | .blockSequence => if c.inBlock then some (c.openWith (.blockSequence p []) .after) else none
  | .blockMapping => if c.inBlock then some (c.openWith (.blockKey p []) .after) else none
  | .blockEntry =>
    if c.inBlockMapping then
      some (c.openWith (.bareSequence p []) (.node endsBareItem .none))
    else skipped
  | _ => skipped

def atFlowItem? (c : Composer) (t : Token) : Option Composer :=
  match c.frames, t with
  | .flowSequence p items :: fs, .flowSequenceEnd => some (c.closeSequence p items fs)
  | .flowSequence p items :: fs, .key =>
    some { c with frames := .singleKey p items :: fs, expected := .node (fun _ => false) .none }
  | .flowSequence _ _ :: _, t => c.atNode? (fun _ => false) .none t
  | _, _ => none

def atFlowPair? (c : Composer) (t : Token) : Option Composer :=
  match c.frames, t with
  | .flowKey p pairs :: fs, .flowMappingEnd => some (c.closeMapping p pairs fs)
  | .flowKey _ _ :: _, .key => some (c.expectNode endsFlowKey)
  | .flowKey p pairs :: fs, t =>
    { c with frames := .flowLoneKey p pairs :: fs }.atNode? (fun _ => false) .none t
  | _, _ => none

/-- A token where a document may start. Only versions 1.1 and 1.2 are known, and no directive is
repeated. -/
def atDocument? (c : Composer) (version : Bool) (handles : List (String × String)) :
    Token → Option Composer
  | .version major minor =>
    if !version && major = 1 && (minor = 1 || minor = 2) then
      some { c with expected := .document true handles }
    else none
  | .tagHandle handle tagPrefix =>
    if handles.any (·.1 = handle) then none
    else some { c with expected := .document version ((handle, tagPrefix) :: handles) }
  | .documentStart =>
    some { c with handles := handles ++ commonHandles, expected := .node endsDocument .none }
  | .streamEnd =>
    if version || !handles.isEmpty then none else some { c with expected := .done }
  | t => if version || !handles.isEmpty then none else c.atNode? (fun _ => false) .none t

def next? (c : Composer) (t : Token) : Option Composer :=
  match c.expected with
  | .document version handles => c.atDocument? version handles t
  | .node mayBeAbsent p => c.atNode? mayBeAbsent p t
  | .flowItem => c.atFlowItem? t
  | .flowPair => c.atFlowPair? t
  | .after => c.after? t
  | .done => none

end Composer

structure Document where
  root : Option Node
  anchored : List (Nat × Node)

namespace Document

def ofTokensFrom? (c : Composer) : List Token → Option Document
  | [] =>
    match c.expected with
    | .done => some ⟨c.root, c.anchored⟩
    | _ => none
  | t :: ts =>
    match c.next? t with
    | none => none
    | some c => ofTokensFrom? c ts

def ofText? (text : String) : Option Document :=
  (Token.ofChars? text.toList).bind (ofTokensFrom? .start)

end Document

end SheetLint.Yaml
