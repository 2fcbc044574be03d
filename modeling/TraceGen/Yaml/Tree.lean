import TraceGen.Yaml.Scanner

/-!
# The structure of YAML documents

`Tree.ofText?` reads a YAML text that holds one document, or none. A tree is the document as
written: aliases are not followed and scalars not interpreted, and every node may have an anchor and
a tag. Nodes that are left out are empty plain scalars.
-/

namespace TraceGen.Yaml

/-- The anchor and the tag of a node. -/
structure Properties where
  /-- The name by which aliases refer to the node. -/
  anchor : Option String
  /-- The tag, its handle resolved. -/
  tag : Option String
deriving DecidableEq, Repr

/-- A document as written. -/
inductive Tree where
  | alias (name : String)
  | scalar (properties : Properties) (text : String) (isPlain : Bool)
  | sequence (properties : Properties) (items : List Tree)
  | mapping (properties : Properties) (entries : List (Tree × Tree))
deriving Repr

namespace Tree

/-- A node that is left out. -/
def missing : Tree :=
  .scalar ⟨none, none⟩ "" true

/-- The handles of tags with what they stand for. -/
abbrev Handles := List (String × String)

/-- The handles that need no directive. -/
def standardHandles : Handles :=
  [("!", "!"), ("!!", "tag:yaml.org,2002:")]

/-- The tag of a handle and a suffix; an empty handle stands for nothing, an unknown one is
refused. -/
def resolveTag? (handles : Handles) (handle suffix : String) : Option String :=
  if handle.isEmpty then some suffix
  else (handles.find? (·.1 = handle)).map fun h => h.2 ++ suffix

/-- Takes the anchor and the tag of a node, in either order. -/
def takeProperties? (handles : Handles) : List Token → Option (Properties × List Token)
  | .anchor a :: .tag h s :: ts => (resolveTag? handles h s).map fun t => (⟨some a, some t⟩, ts)
  | .tag h s :: .anchor a :: ts => (resolveTag? handles h s).map fun t => (⟨some a, some t⟩, ts)
  | .anchor a :: ts => some (⟨some a, none⟩, ts)
  | .tag h s :: ts => (resolveTag? handles h s).map fun t => (⟨none, some t⟩, ts)
  | ts => some (⟨none, none⟩, ts)

/-- Whether the next token leaves out a node inside a block sequence without indentation. -/
def endsEntry : List Token → Bool
  | .blockEntry :: _ => true
  | .key :: _ => true
  | .value :: _ => true
  | .blockEnd :: _ => true
  | _ => false

/-- Whether the next token leaves out a key or a value of a block mapping. -/
def endsBlockPart : List Token → Bool
  | .key :: _ => true
  | .value :: _ => true
  | .blockEnd :: _ => true
  | _ => false

/-- Whether the next token leaves out a key of a flow collection that `close` ends. -/
def endsFlowKey (close : Token) (ts : List Token) : Bool :=
  match ts.head? with
  | some t => t == .value || t == .flowEntry || t == close
  | none => true

/-- Whether the next token leaves out a value of a flow collection that `close` ends. -/
def endsFlowValue (close : Token) (ts : List Token) : Bool :=
  match ts.head? with
  | some t => t == .flowEntry || t == close
  | none => true

/-- Takes the comma before an entry of a flow collection that is not the first. -/
def takeSeparator? (isFirst : Bool) (ts : List Token) : Option (List Token) :=
  if isFirst then some ts
  else match ts with
    | .flowEntry :: ts => some ts
    | _ => none

mutual

/-- Takes a node. Block collections are admitted if `inBlock` holds, and a block sequence without
indentation of its own if `mayDash` holds. -/
def take? (handles : Handles) : Nat → Bool → Bool → List Token → Option (Tree × List Token)
  | 0, _, _, _ => none
  | fuel + 1, inBlock, mayDash, ts =>
    match ts with
    | .alias name :: ts => some (.alias name, ts)
    | ts => do
      let (p, ts) ← takeProperties? handles ts
      match ts with
      | .scalar text isPlain :: ts =>
        -- A tag that consists of the mark alone says nothing about a scalar.
        if p.tag = some "!" then some (.scalar { p with tag := none } text isPlain, ts)
        else some (.scalar p text isPlain, ts)
      | .flowSequenceStart :: ts => do
        let (items, ts) ← takeFlowItems? handles fuel true ts
        return (.sequence p items, ts)
      | .flowMappingStart :: ts => do
        let (entries, ts) ← takeFlowEntries? handles fuel true ts
        return (.mapping p entries, ts)
      | ts =>
        match inBlock, mayDash, ts with
        | _, true, .blockEntry :: _ => do
          let (items, ts) ← takeDashes? handles fuel ts
          return (.sequence p items, ts)
        | true, _, .blockSequenceStart :: ts => do
          let (items, ts) ← takeBlockItems? handles fuel ts
          return (.sequence p items, ts)
        | true, _, .blockMappingStart :: ts => do
          let (entries, ts) ← takeBlockEntries? handles fuel ts
          return (.mapping p entries, ts)
        | _, _, ts =>
          if p = ⟨none, none⟩ then none else some (.scalar p "" true, ts)

/-- Takes the items of a block sequence up to its end. -/
def takeBlockItems? (handles : Handles) : Nat → List Token → Option (List Tree × List Token)
  | 0, _ => none
  | fuel + 1, .blockEntry :: ts => do
    let skips := match ts with
      | .blockEntry :: _ => true
      | .blockEnd :: _ => true
      | _ => false
    let (item, ts) ← if skips then some (missing, ts) else take? handles fuel true false ts
    let (items, ts) ← takeBlockItems? handles fuel ts
    return (item :: items, ts)
  | _ + 1, .blockEnd :: ts => some ([], ts)
  | _ + 1, _ => none

/-- Takes the items of a block sequence without indentation of its own. -/
def takeDashes? (handles : Handles) : Nat → List Token → Option (List Tree × List Token)
  | 0, _ => none
  | fuel + 1, .blockEntry :: ts => do
    let (item, ts) ←
      if endsEntry ts then some (missing, ts) else take? handles fuel true false ts
    let (items, ts) ← takeDashes? handles fuel ts
    return (item :: items, ts)
  | _ + 1, ts => some ([], ts)

/-- Takes the entries of a block mapping up to its end. -/
def takeBlockEntries? (handles : Handles) : Nat → List Token →
    Option (List (Tree × Tree) × List Token)
  | 0, _ => none
  | fuel + 1, .key :: ts => do
    let (key, ts) ←
      if endsBlockPart ts then some (missing, ts) else take? handles fuel true true ts
    let (value, ts) ← match ts with
      | .value :: ts =>
        if endsBlockPart ts then some (missing, ts) else take? handles fuel true true ts
      | ts => some (missing, ts)
    let (entries, ts) ← takeBlockEntries? handles fuel ts
    return ((key, value) :: entries, ts)
  | _ + 1, .blockEnd :: ts => some ([], ts)
  | _ + 1, _ => none

/-- Takes the items of a flow sequence up to its closing bracket. An item may be a mapping with one
entry. -/
def takeFlowItems? (handles : Handles) : Nat → Bool → List Token →
    Option (List Tree × List Token)
  | 0, _, _ => none
  | fuel + 1, isFirst, ts =>
    match ts with
    | .flowSequenceEnd :: ts => some ([], ts)
    | ts => do
      match ← takeSeparator? isFirst ts with
      | .flowSequenceEnd :: ts => return ([], ts)
      | .key :: ts => do
        -- A key that is left out takes the token behind it along.
        let (key, ts) ← if endsFlowKey .flowSequenceEnd ts then some (missing, ts.tail)
          else take? handles fuel false false ts
        let (value, ts) ← match ts with
          | .value :: ts =>
            if endsFlowValue .flowSequenceEnd ts then some (missing, ts)
            else take? handles fuel false false ts
          | ts => some (missing, ts)
        let (items, ts) ← takeFlowItems? handles fuel false ts
        return (.mapping ⟨none, none⟩ [(key, value)] :: items, ts)
      | ts => do
        let (item, ts) ← take? handles fuel false false ts
        let (items, ts) ← takeFlowItems? handles fuel false ts
        return (item :: items, ts)

/-- Takes the entries of a flow mapping up to its closing brace. A key may stand without a value. -/
def takeFlowEntries? (handles : Handles) : Nat → Bool → List Token →
    Option (List (Tree × Tree) × List Token)
  | 0, _, _ => none
  | fuel + 1, isFirst, ts =>
    match ts with
    | .flowMappingEnd :: ts => some ([], ts)
    | ts => do
      match ← takeSeparator? isFirst ts with
      | .flowMappingEnd :: ts => return ([], ts)
      | .key :: ts => do
        let (key, ts) ← if endsFlowKey .flowMappingEnd ts then some (missing, ts)
          else take? handles fuel false false ts
        let (value, ts) ← match ts with
          | .value :: ts =>
            if endsFlowValue .flowMappingEnd ts then some (missing, ts)
            else take? handles fuel false false ts
          | ts => some (missing, ts)
        let (entries, ts) ← takeFlowEntries? handles fuel false ts
        return ((key, value) :: entries, ts)
      | ts => do
        let (key, ts) ← take? handles fuel false false ts
        let (entries, ts) ← takeFlowEntries? handles fuel false ts
        return ((key, missing) :: entries, ts)

end

/-- Takes the directives before a document: whether a version was given, and the handles. One
version and one prefix for each handle are admitted. -/
def takeDirectives? : Bool → Handles → List Token → Option (Handles × List Token)
  | versioned, handles, .version major minor :: ts =>
    if versioned = true ∨ major ≠ 1 ∨ (minor ≠ 1 ∧ minor ≠ 2) then none
    else takeDirectives? true handles ts
  | versioned, handles, .tagHandle handle start :: ts =>
    if handles.any (·.1 = handle) then none
    else takeDirectives? versioned (handles ++ [(handle, start)]) ts
  | _, handles, ts => some (handles ++ standardHandles, ts)

/-- Whether the tokens begin with what a document without a marker does not begin with. -/
def beginsExplicitly : List Token → Bool
  | .version _ _ :: _ => true
  | .tagHandle _ _ :: _ => true
  | .documentStart :: _ => true
  | _ => false

/-- Whether a document behind its marker is left out. -/
def endsDocument : List Token → Bool
  | .documentEnd :: _ => true
  | .streamEnd :: _ => true
  | ts => beginsExplicitly ts

/-- Whether nothing follows a document but markers of its end. -/
def isOver : List Token → Bool
  | [.streamEnd] => true
  | .documentEnd :: ts => isOver ts
  | _ => false

/-- The document of a sequence of tokens: the inner `none` if there is none. Every node takes a
token, so twice their number is fuel enough. -/
def ofTokens? (ts : List Token) : Option (Option Tree) :=
  let fuel := 2 * ts.length + 2
  let finish (t : Tree) (rest : List Token) : Option (Option Tree) :=
    if isOver rest then some (some t) else none
  if ts = [.streamEnd] then some none
  else if beginsExplicitly ts then do
    let (handles, ts) ← takeDirectives? false [] ts
    match ts with
    | .documentStart :: ts =>
      if endsDocument ts then finish missing ts
      else
        let (t, rest) ← take? handles fuel true false ts
        finish t rest
    | _ => none
  else do
    let (t, rest) ← take? standardHandles fuel true false ts
    finish t rest

/-- The document of a text. -/
def ofText? (text : String) : Option (Option Tree) := do
  ofTokens? (← Token.scan? text.toList)

end Tree

end TraceGen.Yaml
