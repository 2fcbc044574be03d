import TraceGen.Files.Disk
import TraceGen.Problem.Registry
import TraceGen.Settings.Error
import TraceGen.Settings.Overlay
import TraceGen.Yaml.Printer

/-!
# Settings

Settings say which problem is worked on and how the compiler is run. They are collected from files
and bindings into one mapping, from which `Settings.ofMapping?` reads every field. A tag in front of
a key or a value does not count. `Settings.write` gives them as YAML. The fields and their sources
are those of §10.1 of `SPEC_FULL.md`.
-/

namespace TraceGen

open Yaml (Node Field)

/-- What files and bindings say. -/
structure Settings where
  /-- The name of the problem. -/
  problem : String
  /-- The compiler. -/
  compilerPath : Path
  /-- How many seconds a compile may take. -/
  compileTimeout : Nat
  /-- The seed of the sample; without one it varies. -/
  samplingSeed : Option Nat
  /-- Options to add instead of those of the problem. -/
  flagsToAdd : Option (List String)
  /-- Options to drop instead of those of the problem. -/
  flagsToDelete : Option (List String)
  /-- Options to replace instead of those of the problem. -/
  flagsToReplace : Option (KeyMap String)
  /-- Options that ask for a training log, instead of those of the problem. -/
  logFlags : Option (List String)
  /-- Options that name a policy, instead of those of the problem. -/
  policyFlags : Option (List String)
deriving DecidableEq

namespace Settings

/-- The settings where nothing is set. -/
def standard : Settings :=
  ⟨"inlining", "clang", 60, none, none, none, none, none, none⟩

/-- A value without the tags in front of it. -/
def untagged : Node → Node
  | .tagged _ node => untagged node
  | node => node

/-- The text that a value is. -/
def text? (node : Node) : Option String :=
  match untagged node with
  | .text s => some s
  | _ => none

/-- The natural that a value is. -/
def natural? (node : Node) : Option Nat :=
  match untagged node with
  | .number (.natural n) => some n
  | _ => none

/-- The texts that a value lists; a tagged null lists none. -/
def texts? (node : Node) : Option (List String) :=
  match untagged node with
  | .sequence items => items.mapM text?
  | .null => some []
  | _ => none

/-- The entry of a map of texts. -/
def entry? (e : Node × Node) : Option (String × String) := do
  return (← text? e.1, ← text? e.2)

/-- The map of texts that a value is. Of keys that differ by tags only the last one counts. -/
def table? (node : Node) : Option (KeyMap String) :=
  match untagged node with
  | .mapping entries => (entries.mapM entry?).map KeyMap.ofList
  | .null => some KeyMap.empty
  | _ => none

/-- A value that may be absent, which null says. -/
def optional? {α : Type} (read? : Node → Option α) (node : Node) : Option (Option α) :=
  match node with
  | .null => some none
  | node => (read? node).map some

/-- Sets the field with a name. -/
def setField? (s : Settings) (name : String) (value : Node) : Option Settings :=
  match name with
  | "problem" => (text? value).map fun x => { s with problem := x }
  | "compiler_path" => (text? value).map fun x => { s with compilerPath := x }
  | "compile_timeout_secs" => (natural? value).map fun x => { s with compileTimeout := x }
  | "sampling_seed" => (optional? natural? value).map fun x => { s with samplingSeed := x }
  | "flags_to_add" => (optional? texts? value).map fun x => { s with flagsToAdd := x }
  | "flags_to_delete" => (optional? texts? value).map fun x => { s with flagsToDelete := x }
  | "flags_to_replace" => (optional? table? value).map fun x => { s with flagsToReplace := x }
  | "training_log_flags" => (optional? texts? value).map fun x => { s with logFlags := x }
  | "policy_flags" => (optional? texts? value).map fun x => { s with policyFlags := x }
  | _ => none

/-- Sets the fields of a mapping; `seen` are the names that came before, which must not recur. -/
def setFields? (s : Settings) (seen : List String) : Mapping → Option Settings
  | [] => some s
  | (key, value) :: entries => do
    let name ← text? key
    if seen.contains name then none
    let s ← s.setField? name value
    setFields? s (name :: seen) entries

/-- The settings that a mapping describes. -/
def ofMapping? (entries : Mapping) : Option Settings :=
  setFields? standard [] entries

/-- Lays the files over one another. An empty file changes nothing. -/
def readFiles (d : Disk) : Mapping → List Path → Except SettingsError Mapping
  | entries, [] => .ok entries
  | entries, path :: paths => do
    let text ← match d.readText? path with
      | some text => pure text
      | none => throw (.io path)
    match Node.ofText? text with
    | none => throw (.parse path)
    | some (.mapping overlay) => readFiles d (entries.merge overlay) paths
    | some .null => readFiles d entries paths
    | some _ => throw (.notAMapping path)

/-- Applies bindings in order. -/
def applyBindings : Mapping → List String → Except SettingsError Mapping
  | entries, [] => .ok entries
  | entries, binding :: bindings =>
    match entries.bind? binding with
    | none => .error (.invalidBinding binding)
    | some entries => applyBindings entries bindings

/-- The settings that files and bindings describe. -/
def load (d : Disk) (files : List Path) (bindings : List String) :
    Except SettingsError Settings := do
  let entries ← readFiles d [] files
  let entries ← applyBindings entries bindings
  let settings ← match ofMapping? entries with
    | some settings => pure settings
    | none => throw .invalid
  if settings.compileTimeout = 0 then
    throw (.invalidValue "compile_timeout_secs" "must be greater than zero")
  return settings

/-- The problem of the settings, with what they set instead of its own options. -/
def resolve (s : Settings) (registry : ProblemRegistry) : Except SettingsError Problem :=
  match registry.get? s.problem with
  | none => .error (.unknownProblem s.problem (String.intercalate ", " registry.names))
  | some p => .ok
    { p with
      rules := ⟨s.flagsToAdd.getD p.rules.add, s.flagsToDelete.getD p.rules.delete,
        s.flagsToReplace.getD p.rules.replace⟩
      logFlags := s.logFlags.getD p.logFlags
      policyFlags := s.policyFlags.getD p.policyFlags }

/-- The fields that are set. -/
def fields (s : Settings) : List (String × Field) :=
  let optional {α : Type} (name : String) (x : Option α) (field : α → Field) :
      List (String × Field) :=
    x.toList.map fun a => (name, field a)
  [("problem", .text s.problem), ("compiler_path", .text s.compilerPath),
    ("compile_timeout_secs", .natural s.compileTimeout)]
    ++ optional "sampling_seed" s.samplingSeed .natural
    ++ optional "flags_to_add" s.flagsToAdd .texts
    ++ optional "flags_to_delete" s.flagsToDelete .texts
    ++ optional "flags_to_replace" s.flagsToReplace .table
    ++ optional "training_log_flags" s.logFlags .texts
    ++ optional "policy_flags" s.policyFlags .texts

/-- The settings as YAML. -/
def write (s : Settings) : String :=
  Field.write s.fields

end Settings

end TraceGen
