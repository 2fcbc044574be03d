import TraceGen.Compile.Invocation
import TraceGen.Training.ModuleData

/-!
# Collecting training data by compiling

A module is compiled without a policy to learn the baselines of its keys, unless they are given, and
then with the policy. Without a policy the first compile serves for both. Each key of the last
compile becomes a row: its trajectory with the reward over the moving average set in it, and the
reward over the default. Then the moving average of the key is moved. These are the steps of the
compilation runner in §10.2 of `SPEC_FULL.md`.
-/

namespace TraceGen

/-- A runner of compiles. -/
structure CompileRunner where
  /-- How the compiler is run. -/
  invocation : Invocation
  /-- The share that an old moving average keeps. -/
  decay : Float

namespace CompileRunner

/-- The baselines that a first compile sets. -/
def baselines (log : KeyMap Measurement) : RewardStats :=
  log.map fun _ m => .start m.reward

/-- The training record of a measurement. -/
def record (m : Measurement) (stat : RewardStat) : Bytes :=
  Text.encode (m.trajectory.setField "reward"
    (.ofFloat (reward m.reward stat.movingAverage))).write

/-- The row of a key. -/
def row (key : String) (m : Measurement) (stat : RewardStat) : DataRow :=
  ⟨key, record m stat, reward m.reward stat.defaultReward, m.reward⟩

/-- The rows of the entries of a log, and the baselines with the averages moved. -/
def assembleRows (decay : Float) (name : String) :
    RewardStats → List (String × Measurement) →
      Except CompilationError (List DataRow × RewardStats)
  | stats, [] => .ok ([], stats)
  | stats, (key, m) :: entries =>
    match stats.get? key with
    | none => .error (.unknownKey name key)
    | some stat => do
      let (rows, stats) ←
        assembleRows decay name (stats.insert key (stat.advance decay m.reward)) entries
      return (row key m stat :: rows, stats)

/-- The module data of a log. -/
def assemble (r : CompileRunner) (name : String) (stats : RewardStats)
    (log : KeyMap Measurement) (modelId : Nat) : Except CompilationError ModuleData := do
  let (rows, stats) ← assembleRows r.decay name stats log.entries
  return ⟨rows, stats, modelId⟩

/-- Compiles a module with what is given and puts the data together. -/
def collectWith (r : CompileRunner) (m : LoadedModule) (policy : Option Policy)
    (stats : RewardStats) (modelId : Nat) (h : Host) :
    Except CompilationError ModuleData × Host :=
  match r.invocation.compile m policy h with
  | (.error e, h) => (.error e, h)
  | (.ok log, h) => (r.assemble m.name stats log modelId, h)

/-- Collects the training data of a module. -/
def collect (r : CompileRunner) (m : LoadedModule) (policy : Option Policy)
    (stats : Option RewardStats) (modelId : Nat) (h : Host) :
    Except CompilationError ModuleData × Host :=
  match stats with
  | some stats => r.collectWith m policy stats modelId h
  | none =>
    match r.invocation.compile m none h with
    | (.error e, h) => (.error e, h)
    | (.ok log, h) =>
      match policy with
      | none => (r.assemble m.name (baselines log) log modelId, h)
      | some p => r.collectWith m (some p) (baselines log) modelId h

end CompileRunner

end TraceGen
