import TraceGen.Corpus.Error
import TraceGen.Files.Disk
import TraceGen.Text.Substitute

/-!
# Modules of a corpus

A `ModuleSpec` names a module and its options, in which two placeholders stand for the files that a
compiler reads. A `LoadedModule` carries the content of these files; `buildCommandLine` writes them
below a folder and puts their paths into the options. The files and the placeholders are those of
§10.2 of `SPEC_FULL.md`.
-/

namespace TraceGen

/-- Stands for the path of a module's code. -/
def modulePlaceholder : String := "\x7bmodule_path\x7d"

/-- Stands for the path of a module's index. -/
def indexPlaceholder : String := "\x7bthinlto_path\x7d"

/-- The path of a module's file with an extension, below a folder. -/
def moduleFile (folder : Path) (name extension : String) : Path :=
  Path.join folder (name ++ "." ++ extension)

/-- The extension of files with code. -/
def codeExtension : String := "bc"

/-- The extension of files with a list of options. -/
def optionsExtension : String := "cmd"

/-- The extension of files with an index. -/
def indexExtension : String := "thinlto.bc"

/-- A module that can be compiled. -/
structure ModuleSpec where
  /-- The name, which is a path below the corpus without extension. -/
  name : String
  /-- The size of the code in bytes. -/
  size : Nat
  /-- The options with placeholders. -/
  commandLine : List String
  /-- Whether the module has an index. -/
  hasThinLto : Bool
deriving DecidableEq

/-- A module with its files read. -/
structure LoadedModule where
  /-- The name. -/
  name : String
  /-- The content of the file with code. -/
  ir : Bytes
  /-- The content of the file with the index, if the module has one. -/
  index : Option Bytes
  /-- The options with placeholders. -/
  options : List String
deriving DecidableEq

/-- Adds the placeholders that no option holds yet. -/
def withPlaceholders (hasThinLto : Bool) (options : List String) : List String :=
  let refers (placeholder : String) : Bool := options.any (Text.holds placeholder)
  options
    ++ (if refers modulePlaceholder then [] else ["-x", "ir", modulePlaceholder])
    ++ (if hasThinLto && !refers indexPlaceholder then ["-fthinlto-index=" ++ indexPlaceholder]
      else [])

namespace LoadedModule

/-- Puts the paths of the files into an option: first that of the code, then that of the index. -/
def resolve (codePath indexPath option : String) : String :=
  Text.replaceAll indexPlaceholder indexPath
    (Text.replaceAll modulePlaceholder codePath option)

/-- Writes the files below a folder and puts their paths into the options; none if a file cannot be
written. Without an index its placeholder gives way to nothing. -/
def buildCommandLine (m : LoadedModule) (folder : Path) (d : Disk) :
    Option (List String) × Disk :=
  let codePath := moduleFile folder m.name codeExtension
  let indexPath := moduleFile folder m.name indexExtension
  let (written, d) := d.writeDeep codePath m.ir
  if !written then (none, d)
  else match m.index with
    | none => (some (m.options.map (resolve codePath "")), d)
    | some index =>
      let (written, d) := d.writeDeep indexPath index
      if !written then (none, d)
      else (some (m.options.map (resolve codePath indexPath)), d)

end LoadedModule

end TraceGen
