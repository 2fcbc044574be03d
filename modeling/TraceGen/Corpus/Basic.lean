import TraceGen.Corpus.FlagRules
import TraceGen.Corpus.Module
import TraceGen.Json.Record
import TraceGen.NameFilter

/-!
# Corpora

A corpus is a folder with a description in JSON, which lists its modules, and for every module the
files that `moduleFile` names. `Corpus.read` keeps the modules that a filter selects and changes
their options by rules; what lies in the files of the other modules plays no part. The files of a
corpus are those of §10.2 of `SPEC_FULL.md`.
-/

namespace TraceGen

/-- The name of the file with the description. -/
def descriptionFile : String := "corpus_description.json"

/-- What the description of a corpus says. -/
structure CorpusDescription where
  /-- The names of the modules. -/
  modules : List String
  /-- Whether every module has an index. -/
  hasThinLto : Bool
  /-- Options that take the place of those of every module. -/
  commandOverride : Option (List String)
deriving DecidableEq

/-- Reads a description. Only the list of names is required, and only the override may be null. -/
def CorpusDescription.ofText? (text : String) : Option CorpusDescription := do
  let document ← Json.Document.parse? text
  let fields ← document.record? ["modules", "has_thinlto", "global_command_override"]
  match fields with
  | [some modules, hasThinLto, override] =>
    let modules ← modules.texts?
    let hasThinLto ← match hasThinLto with
      | none => some false
      | some d => d.bool?
    let override ← match override with
      | none => some none
      | some .null => some none
      | some d => d.texts?.map some
    return ⟨modules, hasThinLto, override⟩
  | _ => none

/-- The options in the text of a file: the texts between NULs that are not empty, after newlines at
the end have been dropped. -/
def optionsOfText (text : String) : List String :=
  (((Text.dropBack (· = '\n') text.toList).splitOn '\x00').map String.ofList).filter (· ≠ "")

/-- The modules of a folder. -/
structure Corpus where
  /-- The folder. -/
  root : Path
  /-- The modules in the order of the description. -/
  modules : List ModuleSpec
deriving DecidableEq

namespace Corpus

/-- Makes a module of its description and its files. -/
def readModule (d : Disk) (root : Path) (rules : FlagRules) (description : CorpusDescription)
    (name : String) : Except CorpusError ModuleSpec := do
  let codePath := moduleFile root name codeExtension
  let size ← match d.size? codePath with
    | some size => pure size
    | none => throw (.missingModuleFile name codePath)
  let given ← match description.commandOverride with
    | some options => pure options
    | none =>
      let path := moduleFile root name optionsExtension
      match d.readText? path with
      | some text => pure (optionsOfText text)
      | none => throw (.missingModuleFile name path)
  let options ← rules.apply given
  return ⟨name, size, withPlaceholders description.hasThinLto options, description.hasThinLto⟩

/-- Whether an optional filter selects a name. -/
def selected (filter : Option NameFilter) (name : String) : Bool :=
  match filter with
  | none => true
  | some f => f.selects name

/-- Reads the corpus in a folder. -/
def read (d : Disk) (root : Path) (filter : Option NameFilter) (rules : FlagRules) :
    Except CorpusError Corpus := do
  let path := Path.join root descriptionFile
  if !d.hasFile path then throw (.missingDescription path)
  let text ← match d.readText? path with
    | some text => pure text
    | none => throw (.io "")
  let description ← match CorpusDescription.ofText? text with
    | some description => pure description
    | none => throw (.invalidDescription path "")
  let names := description.modules.filter (selected filter)
  let modules ← names.mapM (readModule d root rules description)
  return ⟨root, modules⟩

/-- The number of modules. -/
def size (c : Corpus) : Nat :=
  c.modules.length

/-- Whether there are no modules. -/
def isEmpty (c : Corpus) : Bool :=
  c.modules.isEmpty

/-- Reads the files of a module. -/
def loadModule (c : Corpus) (d : Disk) (spec : ModuleSpec) : Except CorpusError LoadedModule := do
  let codePath := moduleFile c.root spec.name codeExtension
  let ir ← match d.read? codePath with
    | some content => pure content
    | none => throw (.missingModuleFile spec.name codePath)
  let index ← if spec.hasThinLto then
      let indexPath := moduleFile c.root spec.name indexExtension
      match d.read? indexPath with
      | some content => pure (some content)
      | none => throw (.missingModuleFile spec.name indexPath)
    else pure none
  return ⟨spec.name, ir, index, spec.commandLine⟩

end Corpus

end TraceGen
