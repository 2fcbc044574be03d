import TraceGen.Yaml.Node

/-!
# The meaning of YAML documents

`Node.ofText?` reads a text and says what it means. It fails if the text is no single document, if
an alias comes before its anchor, if two entries of a mapping have the same key, if collections nest
more than 128 deep, or if aliases are followed more than a hundred times as often as the document
has parts. An empty text means null.

Anchors are known by numbers: a name gets the number of names that are known when it is set, and an
alias refers to the last node of the document that has the number.
-/

namespace TraceGen.Yaml

namespace Tree

/-- The numbers of the names of anchors. -/
abbrev Numbering := List (String × Nat)

/-- Gives a name the number of names that are known. -/
def Numbering.set (known : Numbering) (name : String) : Numbering :=
  (name, known.length) :: known.filter (·.1 ≠ name)

/-- Gives the anchor of a node its number. -/
def numberAnchor (known : Numbering) (p : Properties) : Properties × Numbering :=
  match p.anchor with
  | none => (p, known)
  | some name => ({ p with anchor := some (toString known.length) }, known.set name)

mutual

/-- Puts numbers for the names of anchors and aliases. -/
def number? (known : Numbering) : Tree → Option (Tree × Numbering)
  | .alias name => (known.find? (·.1 = name)).map fun e => (.alias (toString e.2), known)
  | .scalar p text isPlain =>
    let (p, known) := numberAnchor known p
    some (.scalar p text isPlain, known)
  | .sequence p items => do
    let (p, known) := numberAnchor known p
    let (items, known) ← numberItems? known items
    return (.sequence p items, known)
  | .mapping p entries => do
    let (p, known) := numberAnchor known p
    let (entries, known) ← numberEntries? known entries
    return (.mapping p entries, known)

/-- Puts numbers for names in a list of nodes. -/
def numberItems? (known : Numbering) : List Tree → Option (List Tree × Numbering)
  | [] => some ([], known)
  | t :: ts => do
    let (t, known) ← number? known t
    let (ts, known) ← numberItems? known ts
    return (t :: ts, known)

/-- Puts numbers for names in a list of entries. -/
def numberEntries? (known : Numbering) :
    List (Tree × Tree) → Option (List (Tree × Tree) × Numbering)
  | [] => some ([], known)
  | (k, v) :: es => do
    let (k, known) ← number? known k
    let (v, known) ← number? known v
    let (es, known) ← numberEntries? known es
    return ((k, v) :: es, known)

end

/-- A node with its anchor, if it has one. -/
def anchored (p : Properties) (t : Tree) : List (String × Tree) :=
  match p.anchor with
  | none => []
  | some name => [(name, t)]

mutual

/-- The nodes with anchors, in order. -/
def targets : Tree → List (String × Tree)
  | .alias _ => []
  | .scalar p text isPlain => anchored p (.scalar p text isPlain)
  | .sequence p items => anchored p (.sequence p items) ++ itemTargets items
  | .mapping p entries => anchored p (.mapping p entries) ++ entryTargets entries

/-- The nodes with anchors of a list. -/
def itemTargets : List Tree → List (String × Tree)
  | [] => []
  | t :: ts => targets t ++ itemTargets ts

/-- The nodes with anchors of a list of entries. -/
def entryTargets : List (Tree × Tree) → List (String × Tree)
  | [] => []
  | (k, v) :: es => targets k ++ (targets v ++ entryTargets es)

end

mutual

/-- The number of parts: one for an alias or a scalar, two more than its nodes for a collection. -/
def parts : Tree → Nat
  | .alias _ => 1
  | .scalar _ _ _ => 1
  | .sequence _ items => 2 + itemParts items
  | .mapping _ entries => 2 + entryParts entries

/-- The number of parts of a list of nodes. -/
def itemParts : List Tree → Nat
  | [] => 0
  | t :: ts => parts t + itemParts ts

/-- The number of parts of a list of entries. -/
def entryParts : List (Tree × Tree) → Nat
  | [] => 0
  | (k, v) :: es => parts k + parts v + entryParts es

end

end Tree

namespace Node

/-- What aliases refer to, and how often they may be followed. -/
structure References where
  /-- The nodes with anchors. -/
  targets : List (String × Tree)
  /-- The number of steps that are admitted. -/
  limit : Nat

/-- The node that a node stands for, and the steps so far. -/
def follow? (r : References) (t : Tree) (steps : Nat) : Option (Tree × Nat) :=
  match t with
  | .alias name =>
    if r.limit ≤ steps then none
    else (r.targets.reverse.find? (·.1 = name)).map fun e => (e.2, steps + 1)
  | t => some (t, steps)

/-- What nodes in a row mean, when `child` says what each of them means. -/
def items? (child : Tree → Nat → Option (Node × Nat)) :
    List Tree → Nat → Option (List Node × Nat)
  | [], steps => some ([], steps)
  | t :: ts, steps => do
    let (n, steps) ← child t steps
    let (ns, steps) ← items? child ts steps
    return (n :: ns, steps)

/-- What entries mean after those that are there; a key that is there already is refused. -/
def entries? (child : Tree → Nat → Option (Node × Nat)) :
    List (Node × Node) → List (Tree × Tree) → Nat → Option (List (Node × Node) × Nat)
  | done, [], steps => some (done, steps)
  | done, (k, v) :: es, steps => do
    let (key, steps) ← child k steps
    if done.any (·.1 = key) then none
    let (value, steps) ← child v steps
    entries? child (done ++ [(key, value)]) es steps

/-- What a node means, when collections may nest `depth` deep. -/
def ofTree? (r : References) : Nat → Tree → Nat → Option (Node × Nat)
  | 0, t, steps => do
    match ← follow? r t steps with
    | (.scalar p s isPlain, steps) => return (← ofScalar? p s isPlain, steps)
    | _ => none
  | depth + 1, t, steps => do
    match ← follow? r t steps with
    | (.alias _, _) => none
    | (.scalar p s isPlain, steps) => return (← ofScalar? p s isPlain, steps)
    | (.sequence p items, steps) =>
      let (ns, steps) ← items? (ofTree? r depth) items steps
      return (← withTag? p.tag (.sequence ns), steps)
    | (.mapping p entries, steps) =>
      let (es, steps) ← entries? (ofTree? r depth) [] entries steps
      return (← withTag? p.tag (.mapping es), steps)

/-- How deep collections may nest. -/
def maxDepth : Nat := 128

/-- What a text means. -/
def ofText? (text : String) : Option Node := do
  match ← Tree.ofText? text with
  | none => some .null
  | some t =>
    let (t, _) ← Tree.number? [] t
    let (n, _) ← ofTree? ⟨t.targets, 100 * t.parts⟩ maxDepth t 0
    return n

end Node

end TraceGen.Yaml
