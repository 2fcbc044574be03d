import TraceGen.Files.Path

/-!
# What can go wrong while a module is measured

Some errors concern one module only: the compiler failed or took too long, or its log cannot be
used. Such errors are recoverable, and all others end the whole run. `CompilationError.message` is
the text of each cause. The two kinds are those of §7 and §10.1 of `SPEC_FULL.md`.
-/

namespace TraceGen

/-- Why no training data of a module can be had. -/
inductive CompilationError where
  /-- The compiler ended without success; a compiler that was killed has no code. -/
  | processFailed (name : String) (code : Option Int) (stderr : String)
  /-- The compiler took longer than allowed. -/
  | timeout (name : String) (seconds : Nat)
  /-- The training log is missing or not of the right form. -/
  | invalidTrace (name : String) (cause : String)
  /-- The log holds a key that the compile without a policy did not report. -/
  | unknownKey (name : String) (key : String)
  /-- A key has no reward statistics. -/
  | missingRewardStat (key : String)
  /-- The columns of a result differ in length. -/
  | lengthMismatch (lengths : String)
  /-- The compiler cannot be started. -/
  | spawn (path : Path) (cause : String)
  /-- Something failed between the program and the disk. -/
  | io (cause : String)
deriving DecidableEq

namespace CompilationError

/-- Whether an error concerns its module only. -/
def isRecoverable : CompilationError → Bool
  | .processFailed .. => true
  | .timeout .. => true
  | .invalidTrace .. => true
  | _ => false

/-- The text of an exit code. -/
def codeText : Option Int → String
  | none => "None"
  | some code => s!"Some({code})"

/-- The text of an error. -/
def message : CompilationError → String
  | .processFailed name code stderr =>
    s!"Compiler exited with code {codeText code} for module '{name}': {stderr}"
  | .timeout name seconds => s!"Compiler timed out after {seconds} seconds for module '{name}'"
  | .invalidTrace name cause => s!"Invalid training log for module '{name}': {cause}"
  | .unknownKey name key =>
    s!"Example '{key}' does not exist under the default policy for module '{name}'"
  | .missingRewardStat key => s!"No reward statistics for key '{key}'"
  | .lengthMismatch lengths => s!"Result sequences have mismatched lengths: {lengths}"
  | .spawn path cause => s!"Failed to launch compiler '{path}': {cause}"
  | .io cause => s!"IO error: {cause}"

end CompilationError

end TraceGen
