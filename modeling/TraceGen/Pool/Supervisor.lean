import TraceGen.Output.Sinks
import TraceGen.Pool.Summary
import TraceGen.Pool.Worker

/-!
# Runs of a pool

A pool is a supervisor with its workers. The supervisor receives one envelope for each module, in
the order in which they arrive, and writes the data of successful modules to the outputs. Then it
closes the outputs and waits for the workers. A fault of a worker, an output that fails and a
channel that nobody can write to abort the run: the supervisor closes the outputs and hangs up, and
the workers stop when they notice it. The stages of a run are those of §4.4 of `SPEC_FULL.md`;
unlike in its §5 the workers do not go on after an abort until the queue is empty.

The supervisor writes down at which stage the run is. `Pool.create` is the pool before a run, and
`Pool.seed`, `Pool.spawn` and `Pool.listen` are what the supervisor does before anybody else can
act; `Pool.start` is the pool after them. `Pool.step` is one action of one actor from then on. A run
is any sequence of such actions; `weight_step_lt` shows that it is finite. `Pool.run` is the run in
which the supervisor acts whenever it can, and else the first worker that can.
-/

namespace TraceGen

/-- Why a run was aborted. -/
inductive PoolError where
  /-- A worker had to stop. -/
  | workerFault (fault : WorkerFault)
  /-- All workers stopped before every module was accounted for. -/
  | resultsClosed (received expected : Nat)
  /-- An output failed. -/
  | sink (e : SinkError)
deriving DecidableEq

/-- The text of an error. -/
def PoolError.message : PoolError → String
  | .workerFault fault => s!"Worker failed: {fault.message}"
  | .resultsClosed received expected =>
    s!"Results queue closed after {received} of {expected} results"
  | .sink e => s!"Output sink error: {e.message}"

/-- The stages of a run. -/
inductive PoolState where
  | init
  | seeding
  | running
  | draining
  | finalizing
  | done
  | aborted
deriving DecidableEq

/-- The name of a stage. -/
def PoolState.name : PoolState → String
  | .init => "Init"
  | .seeding => "Seeding"
  | .running => "Running"
  | .draining => "Draining"
  | .finalizing => "Finalizing"
  | .done => "Done"
  | .aborted => "Aborted"

/-- What the supervisor is about to do. -/
inductive Supervision where
  /-- To receive the envelope with a number, counted from zero. -/
  | draining (received : Nat) (summary : Summary)
  /-- To give the run up. -/
  | aborting (e : PoolError)
  /-- To close the outputs. -/
  | finalizing (summary : Summary)
  /-- To wait for the workers. -/
  | joining (summary : Summary)
  /-- Nothing more. -/
  | finished (result : Except PoolError Summary)

namespace Supervision

/-- An upper bound on the actions to come, apart from receiving. -/
def weight : Supervision → Nat
  | .draining _ _ => 3
  | .aborting _ => 2
  | .finalizing _ => 2
  | .joining _ => 1
  | .finished _ => 0

/-- How the run ended, if it has. -/
def result? : Supervision → Option (Except PoolError Summary)
  | .finished result => some result
  | _ => none

/-- How a run ends that stops here. -/
def outcome : Supervision → Except PoolError Summary
  | .draining received summary => .error (.resultsClosed received summary.work)
  | .aborting e => .error e
  | .finalizing summary => .ok summary
  | .joining summary => .ok summary
  | .finished result => result

/-- The outcome of a run that has ended is its result. -/
theorem outcome_of_result? {s : Supervision} {r : Except PoolError Summary}
    (h : s.result? = some r) : s.outcome = r := by
  cases s <;> simp_all [result?, outcome]

end Supervision

/-- A supervisor and its workers in the course of a run. -/
structure Pool (σ : Type) where
  /-- What the workers share. -/
  shared : Shared σ
  /-- The workers. -/
  workers : List Phase
  /-- The supervisor. -/
  supervision : Supervision
  /-- The parcels that the supervisor has received. -/
  drained : List Parcel
  /-- The outputs. -/
  sinks : Sinks
  /-- The stage that the supervisor has written down. -/
  state : PoolState

/-- Who acts. -/
inductive Actor where
  /-- The supervisor. -/
  | supervisor
  /-- The worker with a number. -/
  | worker (i : Nat)
deriving DecidableEq

namespace Pool

variable {σ : Type}

/-- A pool before its run. -/
def create (sinks : Sinks) (world : σ) : Pool σ where
  shared := ⟨[], .start 0, [], world⟩
  workers := []
  supervision := .draining 0 (.start 0)
  drained := []
  sinks := sinks
  state := .init

/-- The modules are put into the queue. -/
def seed (p : Pool σ) (modules : List LoadedModule) : Pool σ :=
  { p with
    shared := { p.shared with queue := p.shared.queue ++ modules }
    state := .seeding }

/-- The workers are set to work, each with a sender of its own. -/
def spawn (p : Pool σ) (workers : Nat) : Pool σ :=
  { p with
    shared := { p.shared with channel := .start workers }
    workers := List.replicate workers .starting
    state := .running }

/-- The supervisor begins to receive `work` envelopes. -/
def listen (p : Pool σ) (work : Nat) : Pool σ :=
  { p with supervision := .draining 0 (.start work), state := .draining }

/-- A pool with all modules in the queue and nobody at work yet. -/
def start (workers : Nat) (modules : List LoadedModule) (sinks : Sinks) (world : σ) : Pool σ :=
  (((create sinks world).seed modules).spawn workers).listen modules.length

/-- At the start all modules are in the queue and each worker is a sender. -/
@[simp] theorem start_shared (workers : Nat) (modules : List LoadedModule) (sinks : Sinks)
    (world : σ) :
    (start workers modules sinks world).shared = ⟨modules, .start workers, [], world⟩ := rfl

/-- At the start no worker has loaded its policy. -/
@[simp] theorem start_workers (workers : Nat) (modules : List LoadedModule) (sinks : Sinks)
    (world : σ) : (start workers modules sinks world).workers = List.replicate workers .starting :=
  rfl

/-- At the start no parcel has been received. -/
@[simp] theorem start_drained (workers : Nat) (modules : List LoadedModule) (sinks : Sinks)
    (world : σ) : (start workers modules sinks world).drained = [] := rfl

/-- The name of a worker. -/
def workerId (i : Nat) : String :=
  s!"worker-{i}"

/-- The supervisor is going to give the run up. -/
def abort (p : Pool σ) (e : PoolError) : Pool σ :=
  { p with supervision := .aborting e, state := .aborted }

/-- The supervisor ends the run and hangs up. -/
def finish (p : Pool σ) (result : Except PoolError Summary) : Pool σ :=
  { p with
    supervision := .finished result
    shared := { p.shared with channel := p.shared.channel.hangUp }
    state := match result with
      | .ok _ => .done
      | .error _ => .aborted }

/-- Acts on an envelope after the first `received`. -/
def integrate (p : Pool σ) (received : Nat) (summary : Summary) : Envelope → Pool σ
  | .fatal fault => p.abort (.workerFault fault)
  | .failure => { p with supervision := .draining (received + 1) summary.addFailure }
  | .success outcome =>
    match p.sinks.writeOutcome outcome with
    | (.error e, sinks) => { p with sinks := sinks }.abort (.sink e)
    | (.ok n, sinks) =>
      { p with sinks := sinks, supervision := .draining (received + 1) (summary.addSuccess n) }

/-- Receives an envelope if there is one. -/
def drain (p : Pool σ) (received : Nat) (summary : Summary) : Option (Pool σ) :=
  match p.shared.channel.receive with
  | .item parcel channel =>
    let p := { p with
      shared := { p.shared with channel := channel }
      drained := p.drained ++ [parcel] }
    some (p.integrate received summary parcel.envelope)
  | .waiting => none
  | .closed => some (p.abort (.resultsClosed received summary.work))

/-- The next action of the supervisor. -/
def supervise (p : Pool σ) : Option (Pool σ) :=
  match p.supervision with
  | .draining received summary =>
    if received = summary.work then
      some { p with supervision := .finalizing summary, state := .finalizing }
    else p.drain received summary
  | .aborting e => some ({ p with sinks := p.sinks.close.2 }.finish (.error e))
  | .finalizing summary =>
    match p.sinks.close with
    | (.error e, sinks) => some ({ p with sinks := sinks }.finish (.error (.sink e)))
    | (.ok (), sinks) => some { p with sinks := sinks, supervision := .joining summary }
  | .joining summary =>
    if p.workers.all Phase.isStopped then some (p.finish (.ok summary)) else none
  | .finished _ => none

/-- The next action of the worker with a number. -/
def work (s : WorkerSetup σ) (i : Nat) (p : Pool σ) : Option (Pool σ) :=
  match p.workers[i]? with
  | none => none
  | some phase =>
    match Worker.step s (workerId i) phase p.shared with
    | none => none
    | some (phase, shared) => some { p with workers := p.workers.set i phase, shared := shared }

/-- The next action of an actor, if it can act. -/
def step (s : WorkerSetup σ) (p : Pool σ) : Actor → Option (Pool σ)
  | .supervisor => p.supervise
  | .worker i => p.work s i

/-- Bounds the actions to come. -/
def weight (p : Pool σ) : Nat :=
  p.shared.weight + p.workers.foldr (·.weight + ·) 0 + p.supervision.weight

/-- Replacing a worker changes the sum of the weights by the difference. -/
theorem sum_weight_set (new : Phase) {workers : List Phase} {i : Nat} {phase : Phase}
    (h : workers[i]? = some phase) :
    (workers.set i new).foldr (·.weight + ·) 0 + phase.weight =
      workers.foldr (·.weight + ·) 0 + new.weight := by
  induction workers generalizing i with
  | nil => simp at h
  | cons w ws ih =>
    cases i with
    | zero =>
      simp only [List.getElem?_cons_zero, Option.some.injEq] at h
      subst h
      simp only [List.set_cons_zero, List.foldr_cons]
      omega
    | succ i =>
      simp only [List.getElem?_cons_succ] at h
      simp only [List.set_cons_succ, List.foldr_cons]
      have := ih h
      omega

/-- An action of a worker takes weight away. -/
theorem weight_work_lt {s : WorkerSetup σ} {i : Nat} {p q : Pool σ} (h : p.work s i = some q) :
    q.weight < p.weight := by
  unfold work at h
  split at h
  · cases h
  · rename_i phase hphase
    split at h
    · cases h
    · rename_i new shared hstep
      cases h
      have less := Worker.weight_step_lt hstep
      have sum := sum_weight_set new hphase
      simp only [weight]
      omega

/-- Receiving takes weight away. -/
theorem weight_drain_lt {p q : Pool σ} {received : Nat} {summary : Summary}
    (hp : p.supervision = .draining received summary) (h : p.drain received summary = some q) :
    q.weight < p.weight := by
  unfold drain Channel.receive at h
  cases hitems : p.shared.channel.items with
  | nil =>
    simp only [hitems] at h
    by_cases hsenders : p.shared.channel.senders = 0
    · simp only [hsenders, if_true, Option.some.injEq] at h
      subst h
      simp only [weight, abort, hp, Supervision.weight]
      omega
    · simp only [hsenders, if_false, reduceCtorEq] at h
  | cons parcel rest =>
    simp only [hitems, Option.some.injEq] at h
    subst h
    cases parcel.envelope with
    | fatal fault =>
      simp only [integrate, abort, weight, Shared.weight, hp, Supervision.weight, hitems,
        List.length_cons]
      omega
    | failure =>
      simp only [integrate, weight, Shared.weight, hp, Supervision.weight, hitems,
        List.length_cons]
      omega
    | success outcome =>
      simp only [integrate]
      split <;>
        simp only [abort, weight, Shared.weight, hp, Supervision.weight, hitems,
          List.length_cons] <;>
        omega

/-- An action of the supervisor takes weight away. -/
theorem weight_supervise_lt {p q : Pool σ} (h : p.supervise = some q) : q.weight < p.weight := by
  unfold supervise at h
  split at h
  · rename_i received summary hs
    split at h
    · cases h
      simp only [weight, hs, Supervision.weight]
      omega
    · exact weight_drain_lt hs h
  · rename_i e hs
    cases h
    simp only [weight, finish, hs, Supervision.weight, Shared.weight, Channel.hangUp]
    omega
  · rename_i summary hs
    split at h <;> cases h <;>
      simp only [weight, finish, hs, Supervision.weight, Shared.weight, Channel.hangUp] <;> omega
  · rename_i summary hs
    split at h
    · cases h
      simp only [weight, finish, hs, Supervision.weight, Shared.weight, Channel.hangUp]
      omega
    · cases h
  · cases h

/-- Every action takes weight away. -/
theorem weight_step_lt {s : WorkerSetup σ} {a : Actor} {p q : Pool σ}
    (h : p.step s a = some q) : q.weight < p.weight := by
  cases a with
  | supervisor => exact weight_supervise_lt h
  | worker i => exact weight_work_lt h

/-- The actors, the supervisor first. -/
def actors (p : Pool σ) : List Actor :=
  .supervisor :: (List.range p.workers.length).map .worker

/-- The action of the first actor that can act. -/
def next? (s : WorkerSetup σ) (p : Pool σ) : Option (Pool σ) :=
  p.actors.findSome? (p.step s)

/-- The chosen action takes weight away. -/
theorem weight_next_lt {s : WorkerSetup σ} {p q : Pool σ} (h : p.next? s = some q) :
    q.weight < p.weight := by
  obtain ⟨a, _, ha⟩ := List.exists_of_findSome?_eq_some h
  exact weight_step_lt ha

/-- Lets the actors act until nobody can. -/
def run (s : WorkerSetup σ) (p : Pool σ) : Pool σ :=
  match _h : p.next? s with
  | none => p
  | some q => run s q
termination_by p.weight
decreasing_by exact weight_next_lt _h

/-- How the run ended, if it has. -/
def result? (p : Pool σ) : Option (Except PoolError Summary) :=
  p.supervision.result?

/-- How the run ends if nobody acts any more. -/
def outcome (p : Pool σ) : Except PoolError Summary :=
  p.supervision.outcome

end Pool

end TraceGen
