import TraceGen.Pool.Channel
import TraceGen.Pool.Envelope

/-!
# Workers

A worker loads the policy and then takes modules from the queue of work, one at a time: it collects
the data of a module and puts an envelope for it into the channel. It stops when the queue is empty,
when nobody receives its envelopes, and after an envelope that reports a fault. This is the worker
of §4.3 of `SPEC_FULL.md`.

`Worker.step` is one action of a worker on what it shares with the others. It is never possible for
a worker that has stopped and always for any other, and `weight_step_lt` shows that there are only
finitely many.
-/

namespace TraceGen

/-- What all workers of a run are given. -/
structure WorkerSetup (σ : Type) where
  /-- How data is collected. -/
  collector : Collector σ
  /-- What loading the policy gives the worker with an id when that worker starts. -/
  policy : String → Except PolicyError (Option Policy)
  /-- Which keys are selected. -/
  keyFilter : Option NameFilter

/-- The number of the model that collectors are told. -/
def defaultModelId : Nat := 0

/-- What a worker is about to do. -/
inductive Phase where
  /-- To load the policy. -/
  | starting
  /-- To take a module. -/
  | idle
  /-- To collect the data of a module. -/
  | holding (m : LoadedModule)
  /-- To put the envelope of a module. -/
  | delivering (m : LoadedModule) (e : Envelope)
  /-- To report that the policy cannot be loaded. -/
  | reporting (e : PolicyError)
  /-- Nothing more. -/
  | stopped

/-- What workers share. -/
structure Shared (σ : Type) where
  /-- The modules that nobody has taken. -/
  queue : List LoadedModule
  /-- The way to the supervisor. -/
  channel : Channel Parcel
  /-- The parcels that could not be put because nobody receives them. -/
  refused : List Parcel
  /-- What collectors act on. -/
  world : σ

namespace Phase

/-- An upper bound on the actions to come, the items that these put into the channel counted in. -/
def weight : Phase → Nat
  | .starting => 3
  | .idle => 1
  | .holding _ => 4
  | .delivering _ _ => 3
  | .reporting _ => 2
  | .stopped => 0

/-- Whether a worker has stopped. -/
def isStopped : Phase → Bool
  | .stopped => true
  | _ => false

end Phase

namespace Shared

variable {σ : Type}

/-- Bounds the actions that the modules and the items in the channel still cause. -/
def weight (sh : Shared σ) : Nat :=
  4 * sh.queue.length + sh.channel.items.length

end Shared

namespace Worker

variable {σ : Type}

/-- The policy that the worker `id` works with. -/
def policyOf (s : WorkerSetup σ) (id : String) : Option Policy :=
  match s.policy id with
  | .ok policy => policy
  | .error _ => none

/-- Leaves the others. -/
def stop (sh : Shared σ) : Phase × Shared σ :=
  (.stopped, { sh with channel := sh.channel.dropSender })

/-- Puts a parcel; where nobody receives it the worker stops. -/
def deliver (parcel : Parcel) (sh : Shared σ) : Phase × Shared σ :=
  match sh.channel.put? parcel with
  | none => stop { sh with refused := sh.refused ++ [parcel] }
  | some channel =>
    if parcel.envelope.isFatal then stop { sh with channel := channel }
    else (.idle, { sh with channel := channel })

/-- Collects the data of a module. -/
def collect (s : WorkerSetup σ) (id : String) (m : LoadedModule) (sh : Shared σ) :
    Phase × Shared σ :=
  let (collected, world) := s.collector m (policyOf s id) none defaultModelId sh.world
  (.delivering m (.ofCollected s.keyFilter id m.name collected), { sh with world := world })

/-- The next action of the worker `id`. -/
def step (s : WorkerSetup σ) (id : String) : Phase → Shared σ → Option (Phase × Shared σ)
  | .starting, sh =>
    match s.policy id with
    | .ok _ => some (.idle, sh)
    | .error e => some (.reporting e, sh)
  | .idle, sh =>
    match sh.queue with
    | [] => some (stop sh)
    | m :: queue => some (.holding m, { sh with queue := queue })
  | .holding m, sh => some (collect s id m sh)
  | .delivering m e, sh => some (deliver ⟨some m, e⟩ sh)
  | .reporting e, sh => some (deliver ⟨none, .fatal (.policy e)⟩ sh)
  | .stopped, _ => none

/-- A worker that has not stopped can act. -/
theorem step_eq_none_iff {s : WorkerSetup σ} {id : String} {phase : Phase} {sh : Shared σ} :
    step s id phase sh = none ↔ phase = .stopped := by
  cases phase <;> simp only [step, reduceCtorEq, iff_false] <;> split <;> simp

/-- Delivering takes as much weight as it adds at most. -/
theorem weight_deliver_le (parcel : Parcel) (sh : Shared σ) :
    (deliver parcel sh).1.weight + (deliver parcel sh).2.weight ≤
      sh.weight + 1 + (if parcel.envelope.isFatal then 0 else 1) := by
  unfold deliver Channel.put?
  by_cases hl : sh.channel.isListening
  · by_cases hf : parcel.envelope.isFatal <;>
      simp [hl, hf, stop, Phase.weight, Shared.weight, Channel.dropSender] <;> omega
  · simp [hl, stop, Phase.weight, Shared.weight, Channel.dropSender]
    omega

/-- Every action takes weight away. -/
theorem weight_step_lt {s : WorkerSetup σ} {id : String} {phase phase' : Phase}
    {sh sh' : Shared σ} (h : step s id phase sh = some (phase', sh')) :
    phase'.weight + sh'.weight < phase.weight + sh.weight := by
  cases phase with
  | starting =>
    simp only [step] at h
    split at h <;> cases h <;> simp [Phase.weight]
  | idle =>
    simp only [step] at h
    split at h
    · cases h
      simp [Phase.weight, Shared.weight, Channel.dropSender]
    · rename_i m queue hq
      cases h
      simp only [Phase.weight, Shared.weight, hq, List.length_cons]
      omega
  | holding m =>
    simp only [step, collect, Option.some.injEq, Prod.mk.injEq] at h
    obtain ⟨rfl, rfl⟩ := h
    simp [Phase.weight, Shared.weight]
  | delivering m e =>
    simp only [step, Option.some.injEq] at h
    have := weight_deliver_le ⟨some m, e⟩ sh
    have one : (if e.isFatal then 0 else 1) ≤ 1 := by split <;> omega
    have weight : (Phase.delivering m e).weight = 3 := rfl
    rw [h] at this
    simp only at this
    omega
  | reporting e =>
    simp only [step, Option.some.injEq] at h
    have := weight_deliver_le ⟨none, .fatal (.policy e)⟩ sh
    rw [h] at this
    simp only [Envelope.isFatal, if_true, Phase.weight] at this ⊢
    omega
  | stopped => cases h

/-- Lets a worker act until it stops. -/
def run (s : WorkerSetup σ) (id : String) (phase : Phase) (sh : Shared σ) : Shared σ :=
  match _h : step s id phase sh with
  | none => sh
  | some (phase', sh') => run s id phase' sh'
termination_by phase.weight + sh.weight
decreasing_by exact weight_step_lt _h

end Worker

end TraceGen
