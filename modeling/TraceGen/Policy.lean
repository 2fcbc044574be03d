import TraceGen.Digest.Sha256
import TraceGen.Files.Disk
import TraceGen.Text.Hex

/-!
# Policies

A policy is a file or a folder that is handed to the compiler as it is. Its digest stands for its
contents: for a file the content is digested, and for a folder the relative path and the content of
every file below it, in the order of the paths. Paths are compared name by name. The digest is that
of §10.2 of `SPEC_FULL.md`.
-/

namespace TraceGen

/-- Why a policy cannot be had. -/
inductive PolicyError where
  /-- There is nothing at the path. -/
  | notFound (path : Path)
  /-- A folder holds no file. -/
  | empty (path : Path)
  /-- Something cannot be read. -/
  | io (cause : String)
deriving DecidableEq

/-- The text of an error. -/
def PolicyError.message : PolicyError → String
  | .notFound path => s!"Policy path '{path}' does not exist"
  | .empty path => s!"Policy directory '{path}' contains no files"
  | .io cause => s!"IO error: {cause}"

/-- A policy on a disk. -/
structure Policy where
  /-- Where it is. -/
  path : Path
  /-- The digest of its contents in hexadecimal digits. -/
  digest : String
deriving DecidableEq

namespace Policy

mutual

/-- The files below an item, each with its names from `place` on. -/
def filesBelow (place : List String) : Item → List (List String × Bytes)
  | .file content => [(place, content)]
  | .folder entries => filesOfEntries place entries

/-- The files below the entries of a folder. -/
def filesOfEntries (place : List String) : List (String × Item) → List (List String × Bytes)
  | [] => []
  | (name, item) :: entries =>
    filesBelow (place ++ [name]) item ++ filesOfEntries place entries

end

/-- Whether a path comes before another or is the same, name by name. -/
def comesFirst : List String → List String → Bool
  | [], _ => true
  | _ :: _, [] => false
  | a :: as, b :: bs => a < b || (a == b && comesFirst as bs)

/-- The files below the entries of a folder in the order of their paths. -/
def sortedFiles (entries : List (String × Item)) : List (List String × Bytes) :=
  (filesOfEntries [] entries).mergeSort (fun a b => comesFirst a.1 b.1)

/-- What is digested for a file: its relative path and its content. -/
def fileMessage (file : List String × Bytes) : Bytes :=
  Text.encode (String.intercalate "/" file.1) ++ file.2

/-- What is digested for the files of a folder. -/
def folderMessage (files : List (List String × Bytes)) : Bytes :=
  files.flatMap fileMessage

/-- The policy at a path. -/
def load (d : Disk) (path : Path) : Except PolicyError Policy :=
  match d.item? path with
  | none => .error (.notFound path)
  | some (.file content) => .ok ⟨path, Text.hexText (Sha256.digest content)⟩
  | some (.folder entries) =>
    match sortedFiles entries with
    | [] => .error (.empty path)
    | files => .ok ⟨path, Text.hexText (Sha256.digest (folderMessage files))⟩

/-- The policy at an optional path. -/
def loadOptional (d : Disk) : Option Path → Except PolicyError (Option Policy)
  | none => .ok none
  | some path => (load d path).map some

end Policy

end TraceGen
