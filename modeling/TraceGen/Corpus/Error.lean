import TraceGen.Files.Path
import TraceGen.Text.Quoted

/-!
# What can be wrong with a corpus

`CorpusError.message` is the text of each cause.
-/

namespace TraceGen

/-- Why a corpus, one of its modules or a command line of it cannot be had. -/
inductive CorpusError where
  /-- The corpus has no description. -/
  | missingDescription (path : Path)
  /-- The description is not JSON of the right shape. -/
  | invalidDescription (path : Path) (cause : String)
  /-- A file of a module cannot be read. -/
  | missingModuleFile (name : String) (path : Path)
  /-- A flag to replace stands in a command line more than once. -/
  | replaceFlagMatchedTwice (flag : String)
  /-- Flags to replace stand nowhere in a command line. -/
  | replaceFlagsNotFound (flags : List String)
  /-- Something else failed between the program and the disk. -/
  | io (cause : String)
deriving DecidableEq

/-- The text of an error. -/
def CorpusError.message : CorpusError → String
  | .missingDescription path => s!"Corpus description not found at '{path}'"
  | .invalidDescription path cause => s!"Invalid corpus description '{path}': {cause}"
  | .missingModuleFile name path => s!"Missing file '{path}' for module '{name}'"
  | .replaceFlagMatchedTwice flag =>
    s!"Flag '{flag}' was matched more than once while rewriting a command line"
  | .replaceFlagsNotFound flags =>
    "Flags expected to be replaced were not found: " ++ Text.quotedList flags
  | .io cause => s!"IO error: {cause}"

end TraceGen
