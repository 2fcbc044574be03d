import TraceGen.Corpus.Sampling
import TraceGen.Pool.Supervisor
import TraceGen.Random.Generator
import TraceGen.Settings.Run

/-!
# Generating traces

A run reads the corpus, draws a sample of its modules and loads them, the largest first. Only then
the output files are created and a pool is set to work on the modules. What the pool has written is
saved at the end, however the run ends. The order of these steps is that of §4.4 and §7 of
`SPEC_FULL.md`.

`RunPlan.generate` lets the pool act in the order of `Pool.run`. Its parts are `RunPlan.prepare`,
`RunPlan.pool` and `RunPlan.conclude`; they serve for a pool that acts in any other order too.
-/

namespace TraceGen

/-- A world with a disk in it. -/
class HasDisk (σ : Type) where
  /-- The disk. -/
  disk : σ → Disk
  /-- The world with another disk in it. -/
  setDisk : Disk → σ → σ

/-- Why no traces were generated. -/
inductive GenerateError where
  /-- The corpus cannot be read, or a module of it. -/
  | corpus (e : CorpusError)
  /-- An output file cannot be created. -/
  | sink (e : SinkError)
  /-- The run of the pool was aborted. -/
  | pool (e : PoolError)

/-- The text of an error. -/
def GenerateError.message : GenerateError → String
  | .corpus e => s!"Corpus error: {e.message}"
  | .sink e => s!"Output error: {e.message}"
  | .pool e => e.message

namespace RunPlan

variable {σ : Type}

/-- The generator that the sample is drawn with: that of the seed if there is one, else `fresh`. -/
def generator (plan : RunPlan) (fresh : Random.Generator) : Random.Generator :=
  match plan.settings.samplingSeed with
  | some seed => .ofSeed seed.toUInt64
  | none => fresh

/-- The modules that are drawn from a corpus, the largest first. -/
def draw (plan : RunPlan) (fresh : Random.Generator) (corpus : Corpus) : List ModuleSpec :=
  (corpus.sample (plan.sampledModules corpus.size) true Random.Generator.next
    (plan.generator fresh)).1

/-- Reads the corpus and loads the modules that are drawn from it. -/
def loadSampled (plan : RunPlan) (fresh : Random.Generator) (d : Disk) :
    Except CorpusError (List LoadedModule) := do
  let corpus ← Corpus.read d plan.dataPath plan.moduleFilter plan.problem.rules
  (plan.draw fresh corpus).mapM (corpus.loadModule d)

/-- Loads the modules and then creates the output files. -/
def prepare (plan : RunPlan) (fresh : Random.Generator) (d : Disk) :
    Except GenerateError (List LoadedModule × Sinks) × Disk :=
  match plan.loadSampled fresh d with
  | .error e => (.error (.corpus e), d)
  | .ok modules =>
    match Sinks.create d plan.outputPath plan.performancePath with
    | (.error e, d) => (.error (.sink e), d)
    | (.ok sinks, d) => (.ok (modules, sinks), d)

/-- What the workers are given when the disk is `d`: each of them finds the same policy there. -/
def setup (plan : RunPlan) (collector : Collector σ) (d : Disk) : WorkerSetup σ :=
  ⟨collector, fun _ => Policy.loadOptional d plan.policyPath, plan.keyFilter⟩

/-- The pool that is set to work on modules. -/
def pool (plan : RunPlan) (available : Nat) (modules : List LoadedModule) (sinks : Sinks)
    (world : σ) : Pool σ :=
  .start (workerCount plan.numWorkers available) modules sinks world

/-- How a run ends whose pool has come to rest, and what it leaves. -/
def conclude [HasDisk σ] (plan : RunPlan) (p : Pool σ) : Except GenerateError Summary × σ :=
  let world := p.shared.world
  let saved := p.sinks.save (HasDisk.disk world) plan.outputPath plan.performancePath
  (p.outcome.mapError .pool, HasDisk.setDisk saved world)

/-- Generates traces on a machine that can run `available` workers at once. -/
def generate [HasDisk σ] (plan : RunPlan) (available : Nat) (fresh : Random.Generator)
    (collector : Collector σ) (world : σ) : Except GenerateError Summary × σ :=
  match plan.prepare fresh (HasDisk.disk world) with
  | (.error e, d) => (.error e, HasDisk.setDisk d world)
  | (.ok (modules, sinks), d) =>
    plan.conclude ((plan.pool available modules sinks (HasDisk.setDisk d world)).run
      (plan.setup collector d))

end RunPlan

end TraceGen
