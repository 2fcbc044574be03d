import TraceGen.Yaml.Document
import TraceGen.Text.Blank

/-!
# Laying documents over one another

Settings are collected in a mapping. `merge` lays the entries of one mapping over another: where
both hold a mapping, these are merged in turn, and elsewhere the new value replaces the old one. A
binding `a.b=value` sets the value at a path of texts; `bind?` makes the mappings on the way where
there are none. Keys that are there keep their place, and new ones come last. Files and bindings are
combined in this way (§10.1 of `SPEC_FULL.md`).
-/

namespace TraceGen

open Yaml (Node)

/-- The entries of a mapping. -/
abbrev Mapping := List (Node × Node)

namespace Mapping

/-- The value at a key. -/
def get? (key : Node) : Mapping → Option Node
  | [] => none
  | (k, v) :: es => if k = key then some v else get? key es

/-- Sets the value at a key. -/
def put (key value : Node) : Mapping → Mapping
  | [] => [(key, value)]
  | (k, v) :: es => if k = key then (k, value) :: es else (k, v) :: put key value es

mutual

/-- Lays the entries of `overlay` over those of `base`. -/
def merge (base : Mapping) : List (Node × Node) → Mapping
  | [] => base
  | (key, value) :: overlay => merge (mergeEntry base key value) overlay

/-- Lays a value over that at a key. -/
def mergeEntry (base : Mapping) (key : Node) : Node → Mapping
  | .mapping nested =>
    match get? key base with
    | some (.mapping existing) => put key (.mapping (merge existing nested)) base
    | _ => put key (.mapping nested) base
  | value => put key value base

end

/-- Whether a value is a mapping behind one or more tags. -/
def isTaggedMapping : Node → Bool
  | .tagged _ (.mapping _) => true
  | .tagged _ node => isTaggedMapping node
  | _ => false

/-- Sets the value at a path that begins with `segment`. A value on the way that is no mapping gives
way to one; a tagged mapping cannot be passed. -/
def setPath? (value : Node) (entries : Mapping) (segment : String) :
    List String → Option Mapping
  | [] => some (put (.text segment) value entries)
  | next :: path =>
    match get? (.text segment) entries with
    | some (.mapping nested) => descend nested next path
    | some node => if isTaggedMapping node then none else descend [] next path
    | none => descend [] next path
where
  /-- Goes on in the mapping at `segment`. -/
  descend (nested : Mapping) (next : String) (path : List String) : Option Mapping :=
    (setPath? value nested next path).map fun nested =>
      put (.text segment) (.mapping nested) entries

/-- The segments of a dotted key, the first one apart; none if one of them is empty. -/
def keyPath? (key : List Char) : Option (String × List String) :=
  let segments := key.splitOn '.'
  if segments.any List.isEmpty then none
  else match segments.map String.ofList with
    | [] => none
    | segment :: path => some (segment, path)

/-- Applies a binding `key=value`. Blanks around the key and the value do not count. -/
def bind? (entries : Mapping) (binding : String) : Option Mapping := do
  let (key, value) ← Text.cutAt '=' binding.toList
  let (segment, path) ← keyPath? (Text.trim key)
  let value ← Node.ofText? (String.ofList (Text.trim value))
  setPath? value entries segment path

end Mapping

end TraceGen
