import TraceGen.Compile.Error
import TraceGen.Compile.Host
import TraceGen.Corpus.Module
import TraceGen.Policy
import TraceGen.Settings.Basic
import TraceGen.Training.Log

/-!
# One compile

A compile takes place in a scratch folder of its own. The options of the module are followed by the
path of the output, the options that ask for a training log and, with a policy, those that name it.
It gives what the training log holds, provided that the compiler ends with success in time and the
log can be read. §10.2 of `SPEC_FULL.md` lists these steps.
-/

namespace TraceGen

/-- How a compiler is run for a problem. -/
structure Invocation where
  /-- The compiler. -/
  compilerPath : Path
  /-- How many milliseconds a compile may take. -/
  timeout : Nat
  /-- Options that ask for a training log. -/
  logFlags : List String
  /-- Options that name a policy. -/
  policyFlags : List String
deriving DecidableEq

namespace Invocation

/-- How the compiler is run by the settings for a problem. -/
def ofSettings (s : Settings) (p : Problem) : Invocation :=
  ⟨s.compilerPath, 1000 * s.compileTimeout, p.logFlags, p.policyFlags⟩

/-- The name of the training log in the scratch folder. -/
def logName : String := "training_log.jsonl"

/-- The name of the output in the scratch folder. -/
def outputName : String := "output.o"

/-- How many bytes of an error output are kept: its end. -/
def maxErrorBytes : Nat := 4096

/-- The arguments of a compile in a scratch folder. -/
def arguments (i : Invocation) (options : List String) (policy : Option Policy) (folder : Path) :
    List String :=
  options ++ ["-o", Path.join folder outputName]
    ++ i.logFlags.map (Text.replaceAll logPlaceholder (Path.join folder logName))
    ++ match policy with
      | none => []
      | some p => i.policyFlags.map (Text.replaceAll policyPlaceholder p.path)

/-- What a run of the compiler means for the module with a name; `log` is what can be read of the
training log. -/
def interpret (i : Invocation) (name : String) (run : CompilerRun) (log : Option String) :
    Except CompilationError (KeyMap Measurement) :=
  if i.timeout < run.duration then .error (.timeout name (i.timeout / 1000))
  else if run.code ≠ some 0 then
    .error (.processFailed name run.code
      (Text.lastBytes maxErrorBytes (Text.decodeLossy run.stderr)))
  else match log with
    | none => .error (.invalidTrace name LogError.unreadable.message)
    | some text =>
      match TrainingLog.parse text with
      | .error e => .error (.invalidTrace name e.message)
      | .ok entries => .ok entries

/-- Compiles in a scratch folder that is there. -/
def compileIn (i : Invocation) (m : LoadedModule) (policy : Option Policy) (folder : Path)
    (h : Host) : Except CompilationError (KeyMap Measurement) × Host :=
  match m.buildCommandLine folder h.disk with
  | (none, disk) => (.error (.io ""), { h with disk := disk })
  | (some options, disk) =>
    let logPath := Path.join folder logName
    match { h with disk := disk }.launch i.compilerPath (i.arguments options policy folder)
        logPath with
    | (none, h) => (.error (.spawn i.compilerPath ""), h)
    | (some run, h) => (i.interpret m.name run (h.disk.readText? logPath), h)

/-- Compiles a module, with a policy or without. The scratch folder must be a new one; it is removed
in the end. -/
def compile (i : Invocation) (m : LoadedModule) (policy : Option Policy) (h : Host) :
    Except CompilationError (KeyMap Measurement) × Host :=
  let folder := h.scratch h.compiles
  match h.disk.addFolder? folder with
  | none => (.error (.io ""), { h with compiles := h.compiles + 1 })
  | some disk =>
    let (result, h) := i.compileIn m policy folder
      { h with disk := disk, compiles := h.compiles + 1 }
    (result, { h with disk := h.disk.remove folder })

end Invocation

end TraceGen
