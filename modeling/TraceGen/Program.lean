import TraceGen.CommandLine.Basic
import TraceGen.Compile.Collection
import TraceGen.Generation
import TraceGen.Output.Inspection

/-!
# The program

`Program.run` carries out a command on a machine: what it prints, or why it fails, and the machine
afterwards. `Program.execute` starts from the arguments and gives the exit code too, which is 0 for
success and for an answer to a question about the program, 2 for a command line that is refused, and
1 for a command that fails. §6 of `SPEC_FULL.md` asks for 0 at a normal end and for another code
after a fatal error.
-/

namespace TraceGen

instance : HasDisk Host where
  disk := Host.disk
  setDisk d h := { h with disk := d }

/-- The collector that compiles. -/
def CompileRunner.collector (r : CompileRunner) : Collector Host := fun m policy stats modelId h =>
  match r.collect m policy stats modelId h with
  | (.ok data, h) => (.data data, h)
  | (.error e, h) => (.failed e, h)

/-- Why a command fails. -/
inductive ProgramError where
  /-- The settings cannot be used. -/
  | settings (e : SettingsError)
  /-- No traces were generated. -/
  | generate (e : GenerateError)
  /-- The file of records cannot be read. -/
  | sink (e : SinkError)

/-- The text of an error. -/
def ProgramError.message : ProgramError → String
  | .settings e => e.message
  | .generate e => e.message
  | .sink e => e.message

/-- How the program ends. -/
structure Exit where
  /-- The exit code. -/
  code : Nat
  /-- What was printed. -/
  output : String
  /-- What was printed as an error. -/
  complaint : String
deriving DecidableEq

namespace Program

open CommandLine

/-- The name of the program and its version. -/
def version : String := "trace-forge 0.1.0"

/-- The share that an old moving average keeps when traces are generated. -/
def decay : Float := 0

/-- Generates the traces that a plan asks for. -/
def runPlan (plan : RunPlan) (available : Nat) (fresh : Random.Generator) (h : Host) :
    Except ProgramError String × Host :=
  let runner : CompileRunner := ⟨.ofSettings plan.settings plan.problem, decay⟩
  let (result, h) := plan.generate available fresh runner.collector h
  ((result.mapError .generate).map fun summary => summary.text ++ "\n", h)

/-- Carries out a command on a machine that can run `available` workers at once. -/
def run (available : Nat) (fresh : Random.Generator) (command : Command) (h : Host) :
    Except ProgramError String × Host :=
  match command with
  | .generate dataPath options =>
    match options.plan dataPath h.disk with
    | .error e => (.error (.settings e), h)
    | .ok plan => runPlan plan available fresh h
  | .inspect path json =>
    ((Inspection.ofFile h.disk path).mapError .sink |>.map fun report =>
      (if json then report.json else report.text) ++ "\n", h)

/-- The commands and where more is said about them. -/
def usage : String :=
  String.intercalate "\n"
    ["Usage: trace-forge [OPTIONS] <COMMAND>", "", "Commands:",
      "  generate  Compile the modules of a corpus and write training traces",
      "  inspect   Report the contents of a record file",
      "  help      Print this message", ""]

/-- How the program ends on a command line that asks for no command. -/
def answerUsage : UsageError → Exit
  | .help => ⟨0, usage, ""⟩
  | .version => ⟨0, version ++ "\n", ""⟩
  | .nothingGiven => ⟨2, "", usage⟩
  | e => ⟨2, "", s!"error: {e.message}\n"⟩

/-- Runs the program. -/
def execute (available : Nat) (fresh : Random.Generator) (arguments : List String) (h : Host) :
    Exit × Host :=
  match CommandLine.parse arguments with
  | .error e => (answerUsage e, h)
  | .ok request =>
    match run available fresh request.command h with
    | (.ok output, h) => (⟨0, output, ""⟩, h)
    | (.error e, h) => (⟨1, "", s!"Error: {e.message}\n"⟩, h)

end Program

end TraceGen
