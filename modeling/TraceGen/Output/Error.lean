import TraceGen.Files.Path

/-!
# What can go wrong with outputs

`SinkError.message` is the text of each cause.
-/

namespace TraceGen

/-- Why an output cannot be written or read. -/
inductive SinkError where
  /-- A file cannot be created. -/
  | create (path : Path) (cause : String)
  /-- The stream of records ends inside a record. -/
  | truncatedRecord (expected found : Nat)
  /-- Bytes cannot be written or read. -/
  | io (cause : String)
deriving DecidableEq

/-- The text of an error. -/
def SinkError.message : SinkError → String
  | .create path cause => s!"Failed to create output file '{path}': {cause}"
  | .truncatedRecord expected found =>
    s!"Truncated record: expected {expected} bytes, found {found}"
  | .io cause => s!"IO error: {cause}"

end TraceGen
