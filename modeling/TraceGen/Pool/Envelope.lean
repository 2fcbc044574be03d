import TraceGen.Corpus.Module
import TraceGen.Policy
import TraceGen.Training.ModuleData

/-!
# What workers report

A collector is asked for the data of a module. `Envelope.ofCollected` turns its answer into what a
worker reports: the data that the key filter leaves, a failure of this module, or a fault that stops
the worker. An error of the filter counts as an error of the collector. The kinds of envelopes are
those of §3 of `SPEC_FULL.md`, and §4.3 there says when each is sent.
-/

namespace TraceGen

/-- Why a worker has to stop. -/
inductive WorkerFault where
  /-- The policy cannot be loaded. -/
  | policy (e : PolicyError)
  /-- A module failed in a way that concerns more than itself. -/
  | compilation (name : String) (e : CompilationError)
  /-- The collector broke down. -/
  | panicked (workerId message : String)
deriving DecidableEq

/-- The text of a fault. -/
def WorkerFault.message : WorkerFault → String
  | .policy e => s!"Failed to load policy: {e.message}"
  | .compilation name e =>
    s!"Unrecoverable error while processing module '{name}': {e.message}"
  | .panicked workerId message => s!"Worker {workerId} panicked: {message}"

/-- What a worker reports. -/
inductive Envelope where
  /-- A module was processed. -/
  | success (outcome : ModuleOutcome)
  /-- A module failed. -/
  | failure
  /-- The worker has to stop. -/
  | fatal (fault : WorkerFault)

/-- How a collector answers. -/
inductive Collected where
  /-- It gives data. -/
  | data (d : ModuleData)
  /-- It gives up. -/
  | failed (e : CompilationError)
  /-- It breaks down, mostly with a message. -/
  | panicked (message : Option String)

/-- A collector: it is given a module, a policy, baselines and the number of a model, and may change
the world. -/
abbrev Collector (σ : Type) :=
  LoadedModule → Option Policy → Option RewardStats → Nat → σ → Collected × σ

namespace Envelope

/-- Whether a module was processed. -/
def isSuccess : Envelope → Bool
  | .success _ => true
  | _ => false

/-- Whether the worker has to stop. -/
def isFatal : Envelope → Bool
  | .fatal _ => true
  | _ => false

/-- What an error of a module means. -/
def ofError (name : String) (e : CompilationError) : Envelope :=
  if e.isRecoverable then .failure else .fatal (.compilation name e)

/-- What the data of a module means under a key filter. -/
def ofData (keyFilter : Option NameFilter) (name : String) (d : ModuleData) : Envelope :=
  match keyFilter with
  | none => .success (.ofData name d)
  | some f =>
    match d.retainKeys f with
    | .ok d => .success (.ofData name d)
    | .error e => ofError name e

/-- What the answer of a collector means. -/
def ofCollected (keyFilter : Option NameFilter) (workerId name : String) :
    Collected → Envelope
  | .data d => ofData keyFilter name d
  | .failed e => ofError name e
  | .panicked message =>
    .fatal (.panicked workerId (message.getD "unknown panic payload"))

end Envelope

/-- An envelope with the module that it accounts for. A fault of the policy accounts for none. -/
structure Parcel where
  /-- The module. -/
  origin : Option LoadedModule
  /-- What is reported. -/
  envelope : Envelope

end TraceGen
